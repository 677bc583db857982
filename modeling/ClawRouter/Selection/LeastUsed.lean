/-
  Subject:   How long a grant waits where the least used is wanted.

  The authority chooses with its counters, and others report to it what they chose. Until a grant is
  chosen, its counter stands, and no grant that was used more is chosen in its place.

  * **`least_used_waits`**: how many choices a grant that is a candidate may miss.
-/
import ClawRouter.Selection.Pool
import Mathlib.Algebra.Order.BigOperators.Group.Finset

namespace ClawRouter.Selection

open Fallible Grants

section LeastUsed

variable {compare : LocaleCompare} {T T' T'' : Tables} {poolKey key : String} {random : UInt32} {now : Int}
  {input : GrantChoiceInput} {records : List SelectionRecord} {K : Finset String}
    {pool chosen : String} {n : Nat}

/-! ## 1. The least used is chosen -/

def selectedCount (T : Tables) (poolKey key : String) : Nat := ((T.selection poolKey key).map (·.count)).getD 0

/-- The first of a sorted list counts no more than another, whatever decides where they count the same. -/
theorem head_least {α : Type} {order : α → α → Ordering} {count : α → Nat} {l : List α} {a b : α}
    (hle : ∀ a b, order a b ≠ .gt → count a ≤ count b) (hgt : ∀ a b, order a b = .gt → count b ≤ count a)
    (h : (sortBy order l).head? = some a) (hb : b ∈ l) : count a ≤ count b := by
  induction l generalizing a b with
  | nil => cases hb
  | cons c l ih =>
    unfold sortBy at h ih
    rw [List.insertionSort_cons] at h
    cases hsort : l.insertionSort fun a b => order a b ≠ .gt with
    | nil =>
      have hperm := sortBy_perm order l
      unfold sortBy at hperm
      rw [hsort] at h hperm
      cases hperm.symm.eq_nil
      cases h
      cases List.mem_singleton.mp hb
      exact Nat.le_refl _
    | cons first rest =>
      rw [hsort] at h ih
      have hfirst (d : α) (hd : d ∈ l) : count first ≤ count d := ih rfl hd
      rw [List.orderedInsert_cons] at h
      split at h <;> cases h
      · rename_i hc
        rcases List.mem_cons.mp hb with rfl | hb
        · exact Nat.le_refl _
        · exact (hle _ _ hc).trans (hfirst b hb)
      · rename_i hc
        rcases List.mem_cons.mp hb with rfl | hb
        · exact hgt _ _ (not_not.mp hc)
        · exact hfirst b hb

theorem lessUsed_le (a b : GrantChoiceCandidate) : (lessUsed compare (T.selection poolKey) a b ≠ .gt →
      selectedCount T poolKey a.key ≤ selectedCount T poolKey b.key) ∧
    (lessUsed compare (T.selection poolKey) a b = .gt →
      selectedCount T poolKey b.key ≤ selectedCount T poolKey a.key) := by
  have hused (k : String) : selectedCount T poolKey k = ((T.selection poolKey k).getD ⟨0, 0⟩).count := by
    unfold selectedCount
    cases T.selection poolKey k <;> rfl
  rw [hused, hused]
  unfold lessUsed
  dsimp only
  generalize (T.selection poolKey a.key).getD ⟨0, 0⟩ = x
  generalize (T.selection poolKey b.key).getD ⟨0, 0⟩ = y
  cases h : Ord.compare x.count y.count with
  | lt => simpa using (Nat.compare_eq_lt.mp h).le
  | eq => exact ⟨fun _ => (Nat.compare_eq_eq.mp h).le, fun _ => (Nat.compare_eq_eq.mp h).ge⟩
  | gt => simpa using (Nat.compare_eq_gt.mp h).le

theorem Tables.note_other {choice : GrantChoice} {k : String} (hne : poolKey ≠ pool) :
    (T.note pool choice now).selection poolKey k = T.selection poolKey k := by
  unfold Tables.note Tables.upsert
  dsimp only
  rw [if_neg fun h => hne h.1]
  split <;> rfl

theorem select_used (h : selectGrant compare random pool now input T = .ok (chosen, T')) (p k : String) :
    selectedCount T' p k = selectedCount T p k + if p = pool ∧ k = chosen then 1 else 0 := by
  obtain ⟨_, hpool, h⟩ := bind_ok.mp h
  cases poolKey_ok hpool
  obtain ⟨_, -, h⟩ := bind_ok.mp h
  obtain ⟨_, -, h⟩ := bind_ok.mp h
  obtain ⟨choice, -, h⟩ := bind_ok.mp h
  cases pure_ok.mp h
  unfold selectedCount
  by_cases hp : p = pool
  · subst hp
    rw [Tables.note_selection]
    by_cases hk : k = choice.selectedKey
    · rw [if_pos hk, if_pos ⟨rfl, hk⟩, hk]
      rfl
    · rw [if_neg hk, if_neg fun h => hk h.2]
      rfl
  · rw [if_neg fun h => hp h.1, Tables.note_other hp]
    rfl

theorem record_used (h : recordSelections now T records = .ok T') (k : String) :
    selectedCount T poolKey k ≤ selectedCount T' poolKey k ∧
      ((∀ r ∈ records, r.poolKey = poolKey → r.key ≠ k) →
        selectedCount T' poolKey k = selectedCount T poolKey k) := by
  obtain ⟨_, -, hrun⟩ := bind_ok.mp h
  clear h
  induction records generalizing T with
  | nil =>
    cases pure_ok.mp hrun
    exact ⟨Nat.le_refl _, fun _ => rfl⟩
  | cons r rest ih =>
    rw [List.foldlM_cons] at hrun
    obtain ⟨T₁, hone, hrun⟩ := bind_ok.mp hrun
    obtain ⟨hle, hsame⟩ := ih hrun
    have hstep : selectedCount T₁ poolKey k =
        selectedCount T poolKey k + if poolKey = r.poolKey ∧ k = r.key then r.taken else 0 := by
      unfold selectedCount
      rw [(recordOne_ok hone).1]
      unfold Tables.upsert
      dsimp only
      split
      · cases T.selection poolKey k with
        | none => exact (Nat.zero_add _).symm
        | some c => rfl
      · rfl
    refine ⟨by omega, fun hnot => ?_⟩
    rw [hsame fun r hr => hnot r (List.mem_cons_of_mem _ hr), hstep,
      if_neg fun e => hnot r List.mem_cons_self e.1.symm e.2.symm]
    rfl

/-! ## 2. Runs in which a grant waits -/

/-- The least used of grants that `key` is one of, and all of which are in `K`. -/
def LeastUsedOf (compare : LocaleCompare) (K : Finset String) (key : String)
    (input : GrantChoiceInput) : Prop :=
  input.strategy = .leastUsed ∧ input.stickyHash.filter isDigest = none ∧
    ∃ candidates, normalizedChoiceCandidates compare grantKey input.candidates = .ok candidates ∧
      key ∈ candidates.map (·.key) ∧ ∀ c ∈ candidates, c.key ∈ K

theorem chosen_least (hwants : LeastUsedOf compare K key input)
    (h : selectGrant compare random pool now input T = .ok (chosen, T')) :
    chosen ∈ K ∧ selectedCount T pool chosen ≤ selectedCount T pool key := by
  obtain ⟨hstrategy, hsticky, candidates, hcandidates, hkey, hin⟩ := hwants
  obtain ⟨_, hpool, h⟩ := bind_ok.mp h
  cases poolKey_ok hpool
  obtain ⟨_, -, h⟩ := bind_ok.mp h
  rw [hcandidates] at h
  obtain ⟨_, hsame, h⟩ := bind_ok.mp h
  cases hsame
  obtain ⟨choice, hchoice, h⟩ := bind_ok.mp h
  cases pure_ok.mp h
  have hchosen := demand_ok.mp hchoice
  unfold chooseGrantKey at hchosen
  rw [hsticky, hstrategy, if_pos rfl] at hchosen
  obtain ⟨first, hfirst, rfl⟩ := Option.map_eq_some_iff.mp hchosen
  obtain ⟨d, hd, rfl⟩ := List.mem_map.mp hkey
  refine ⟨hin first ((sortBy_perm _ _).subset (List.mem_of_head? hfirst)), ?_⟩
  exact @head_least _ _ (fun c => selectedCount T pool c.key) _ _ _ (fun a b => (lessUsed_le a b).1)
    (fun a b => (lessUsed_le a b).2) hfirst hd

/-- A run in which the grant is not chosen, with the number of choices it was a candidate of. What throws
    leaves the tables and is no step. -/
inductive Waits (compare : LocaleCompare) (poolKey key : String) (K : Finset String) :
    Tables → Tables → Nat → Prop
  | done (T : Tables) : Waits compare poolKey key K T T 0
  | missed {random : UInt32} {now : Int} {input : GrantChoiceInput} {chosen : String}
    {T T' T'' : Tables} {n : Nat}
      (hwants : LeastUsedOf compare K key input) (hne : chosen ≠ key)
      (h : selectGrant compare random poolKey now input T = .ok (chosen, T'))
      (rest : Waits compare poolKey key K T' T'' n) : Waits compare poolKey key K T T'' (n + 1)
  | select {random : UInt32} {pool : String} {now : Int} {input : GrantChoiceInput} {chosen : String}
      {T T' T'' : Tables} {n : Nat} (hne : poolKey = pool → chosen ≠ key)
      (h : selectGrant compare random pool now input T = .ok (chosen, T'))
      (rest : Waits compare poolKey key K T' T'' n) : Waits compare poolKey key K T T'' n
  | record {now : Int} {records : List SelectionRecord} {T T' T'' : Tables} {n : Nat}
      (hne : ∀ r ∈ records, r.poolKey = poolKey → r.key ≠ key) (h : recordSelections now T records = .ok T')
      (rest : Waits compare poolKey key K T' T'' n) : Waits compare poolKey key K T T'' n

/-- What the others may still be chosen before `key`. -/
def ahead (K : Finset String) (T : Tables) (poolKey key : String) : Nat :=
  ∑ d ∈ K.erase key, (selectedCount T poolKey key + 1 - selectedCount T poolKey d)

theorem ahead_le (hkey : selectedCount T' poolKey key = selectedCount T poolKey key)
    (hle : ∀ d, selectedCount T poolKey d ≤ selectedCount T' poolKey d) :
    ahead K T' poolKey key ≤ ahead K T poolKey key := by
  refine Finset.sum_le_sum fun d _ => ?_
  have := hle d
  omega

theorem ahead_lt (hkey : selectedCount T' poolKey key = selectedCount T poolKey key)
    (hle : ∀ d, selectedCount T poolKey d ≤ selectedCount T' poolKey d) (hin : chosen ∈ K) (hne : chosen ≠ key)
    (hleast : selectedCount T poolKey chosen ≤ selectedCount T poolKey key)
    (hcounted : selectedCount T' poolKey chosen = selectedCount T poolKey chosen + 1) :
    ahead K T' poolKey key < ahead K T poolKey key := by
  refine Finset.sum_lt_sum (fun d _ => ?_) ⟨chosen, Finset.mem_erase.mpr ⟨hne, hin⟩, ?_⟩
  · have := hle d
    omega
  · omega

/-- **A grant misses no more choices than the others are behind it**, one by one and each by one more,
    in any order of choices and of what is reported of others. -/
theorem least_used_waits (h : Waits compare poolKey key K T T' n) :
    n ≤ ∑ d ∈ K.erase key, (selectedCount T poolKey key + 1 - selectedCount T poolKey d) := by
  show n ≤ ahead K T poolKey key
  induction h with
  | done => exact Nat.zero_le _
  | missed hwants hne h _ ih =>
    have hused := select_used h poolKey
    obtain ⟨hin, hleast⟩ := chosen_least hwants h
    have hlt := ahead_lt (by rw [hused, if_neg fun e => hne e.2.symm]; rfl)
      (fun d => by rw [hused]; omega) hin hne
      hleast (by rw [hused, if_pos ⟨rfl, rfl⟩])
    omega
  | select hne h _ ih =>
    have hused := select_used h poolKey
    exact ih.trans (ahead_le (by rw [hused, if_neg fun e => hne e.1 e.2.symm]; rfl) fun d => by
      rw [hused]; omega)
  | record hne h _ ih => exact ih.trans (ahead_le ((record_used h key).2 hne) fun d => (record_used h d).1)

def noneUsed : Tables := ⟨fun _ _ => none, fun _ => none⟩

/-- Of two grants that were not used, the second misses a choice. -/
theorem second_waits : 1 ≤ ∑ d ∈ ({"oauth/openai/a", "oauth/openai/b"} : Finset String).erase "oauth/openai/b",
    (selectedCount noneUsed "pool" "oauth/openai/b" + 1 - selectedCount noneUsed "pool" d) :=
  least_used_waits (@Waits.missed Ord.compare "pool" "oauth/openai/b" _ 0 0
    ⟨.leastUsed, none, none, none, [⟨"oauth/openai/a", none, none⟩, ⟨"oauth/openai/b", none, none⟩]⟩
    "oauth/openai/a" noneUsed _ _ _ ⟨rfl, rfl, _, rfl, by decide, by decide⟩ (by decide) rfl (.done _))

end LeastUsed

end ClawRouter.Selection
