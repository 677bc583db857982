/-
  Subject:   Whether the round robin serves every grant of a pool.

  The candidates stand in the order of `localeCompare`, and the cursor advances by code units. Where the
  two orders differ on a pool, a grant may never be served.

  * **`round_robin_serves_iff`**: every grant is served in a round exactly where the orders agree.
-/
import ClawRouter.Lib.Turns
import ClawRouter.Selection.Strategies
import Mathlib.Data.List.Lex

namespace ClawRouter.Selection

open Turns (turns next Leads ByRank)

/-! ## 1. Consecutive choices -/

/-- What a choice is given beside the cursor. -/
structure Call where
  random : UInt32
  counts : String → Option Counter

/-- The keys of consecutive choices over the same candidates. -/
def served (compare : LocaleCompare) (input : GrantChoiceInput) (candidates : List GrantChoiceCandidate) :
    List Call → Option String → List String
  | [], _ => []
  | call :: calls, cursor =>
    match chooseGrantKey compare call.random input candidates ⟨cursor, call.counts⟩ with
    | none => []
    | some choice => choice.selectedKey :: served compare input candidates calls choice.cursorKey

section RoundRobin

variable {compare : LocaleCompare} {input : GrantChoiceInput} {candidates : List GrantChoiceCandidate}

def unitsOf (c : GrantChoiceCandidate) : List Nat := codeUnits c.key

theorem choose_roundRobin (hstrategy : input.strategy = .roundRobin)
    (hsticky : input.stickyHash.filter isDigest = none)
    (call : Call) (cursor : Option String) :
    chooseGrantKey compare call.random input candidates ⟨cursor, call.counts⟩ =
      (next unitsOf candidates (codeUnits (cursor.getD ""))).map advance := by
  unfold chooseGrantKey next unitsOf
  rw [hsticky, hstrategy]
  dsimp only
  congr 3
  funext c
  exact decide_eq_decide.mpr Iff.rfl

theorem served_eq (hstrategy : input.strategy = .roundRobin)
    (hsticky : input.stickyHash.filter isDigest = none)
    (calls : List Call) (cursor : Option String) : served compare input candidates calls cursor =
      (turns unitsOf candidates calls.length (codeUnits (cursor.getD ""))).map (·.key) := by
  induction calls generalizing cursor with
  | nil => rfl
  | cons call calls ih =>
    rw [served, choose_roundRobin hstrategy hsticky, List.length_cons, turns]
    cases next unitsOf candidates (codeUnits (cursor.getD "")) with
    | none => rfl
    | some c =>
      show c.key :: served compare input candidates calls (some c.key) = _
      rw [ih]
      rfl

/-! ## 2. Each key once -/

theorem setCandidate_nodup {seen : List GrantChoiceCandidate} (h : (seen.map (·.key)).Nodup)
    (c : GrantChoiceCandidate) : ((setCandidate seen c).map (·.key)).Nodup := by
  unfold setCandidate
  split
  · have hsame : (seen.map fun d => if d.key = c.key then c else d).map (·.key) = seen.map (·.key) := by
      rw [List.map_map]
      refine List.map_congr_left fun d _ => ?_
      dsimp only [Function.comp]
      split
      · rename_i hkey
        exact hkey.symm
      · rfl
    rw [hsame]
    exact h
  · rename_i hnone
    rw [List.map_append, List.nodup_append]
    refine ⟨h, List.nodup_singleton _, fun a ha b hb hab => hnone ?_⟩
    obtain ⟨d, hd, rfl⟩ := List.mem_map.mp ha
    refine List.any_eq_true.mpr ⟨d, hd, decide_eq_true ?_⟩
    rw [hab]
    exact List.mem_singleton.mp hb

theorem normalized_nodup {key : String → Except HttpError String} {l : List ChoiceEntry}
    (h : normalizedChoiceCandidates compare key l = .ok candidates) : (candidates.map (·.key)).Nodup := by
  have hfold : ∀ (l seen : List GrantChoiceCandidate), (seen.map (·.key)).Nodup →
      ((l.foldl setCandidate seen).map (·.key)).Nodup := by
    intro l
    induction l with
    | nil => exact fun _ h => h
    | cons c l ih => exact fun seen h => ih _ (setCandidate_nodup h c)
  obtain ⟨normalized, _, hsorted⟩ := Fallible.bind_ok.mp h
  cases Fallible.pure_ok.mp hsorted
  exact ((sortBy_perm _ _).map _).nodup_iff.mpr (hfold normalized [] List.nodup_nil)

/-! ## 3. Rounds -/

/-- **Every grant is served once in a round, whatever the cursor, exactly where the candidates stand in the
    order of their code units.** -/
theorem round_robin_serves_iff {key : String → Except HttpError String} {l : List ChoiceEntry}
    (hcandidates : normalizedChoiceCandidates compare key l = .ok candidates)
    (hstrategy : input.strategy = .roundRobin) (hsticky : input.stickyHash.filter isDigest = none) :
    (∀ (cursor : Option String) (calls : List Call), calls.length = candidates.length →
        ∀ c ∈ candidates, (served compare input candidates calls cursor).count c.key = 1) ↔
      candidates.Pairwise fun a b => codeUnits a.key < codeUnits b.key := by
  have hkeys := normalized_nodup hcandidates
  constructor
  · intro hserves
    show ByRank unitsOf candidates
    refine Turns.byRank_of_leads (List.Nodup.of_map _ hkeys) fun c hc => ?_
    have hcount := hserves none (List.replicate candidates.length ⟨0, fun _ => none⟩)
      List.length_replicate c hc
    have hmem : c.key ∈ served compare input candidates _ none :=
      List.count_pos_iff.mp (by rw [hcount]; exact Nat.one_pos)
    rw [served_eq hstrategy hsticky] at hmem
    obtain ⟨d, hd, hkey⟩ := List.mem_map.mp hmem
    have hleads := Turns.turns_lead hd
    have hdmem : d ∈ candidates := by
      obtain ⟨xs, ys, hsplit, _⟩ := hleads
      rw [hsplit]
      exact List.mem_append_right _ List.mem_cons_self
    rw [← List.inj_on_of_nodup_map hkeys hdmem hc hkey]
    exact hleads
  · intro hsorted cursor calls hlength c hc
    rw [served_eq hstrategy hsticky, hlength]
    have hperm : (turns unitsOf candidates candidates.length (codeUnits (cursor.getD ""))).Perm candidates :=
      Turns.turns_perm hsorted _
    rw [(hperm.map (·.key)).count_eq]
    exact List.count_eq_one_of_mem hkeys (List.mem_map_of_mem hc)

/-! Two keys that the two orders tell apart the other way round. -/

/-- `localeCompare` on the two keys: letters before case. -/
def letterCompare : LocaleCompare :=
  fun a b =>
  if a = b then .eq else if a = "oauth/openai/a" ∧ b = "oauth/openai/B" then .lt else .gt

def roundRobin : GrantChoiceInput :=
  ⟨.roundRobin, none, none, none, [⟨"oauth/openai/B", none, none⟩, ⟨"oauth/openai/a", none, none⟩]⟩

def capitalPool : List GrantChoiceCandidate := [⟨"oauth/openai/a", 1, none⟩, ⟨"oauth/openai/B", 1, none⟩]

/-- The cursor stays at the first key, and the other is never served. -/
theorem capital_never_served :
    normalizedChoiceCandidates letterCompare .ok roundRobin.candidates = .ok capitalPool ∧
      ¬ ∀ (cursor : Option String) (calls : List Call), calls.length = 2 →
        ∀ c ∈ capitalPool, (served letterCompare roundRobin capitalPool calls cursor).count c.key = 1 := by
  refine ⟨rfl, fun hserves => ?_⟩
  have htwo := hserves none [⟨0, fun _ => none⟩, ⟨0, fun _ => none⟩] rfl ⟨"oauth/openai/B", 1, none⟩
    (List.mem_cons_of_mem _ List.mem_cons_self)
  rw [served_eq rfl rfl] at htwo
  exact absurd htwo (by decide)

def smallPool : List GrantChoiceCandidate := [⟨"oauth/openai/a", 1, none⟩, ⟨"oauth/openai/b", 1, none⟩]

theorem small_letters_served :
    (served Ord.compare roundRobin smallPool [⟨0, fun _ => none⟩, ⟨0, fun _ => none⟩]
      (some "oauth/openai/a")).count "oauth/openai/b" = 1 := by
  have hcandidates : normalizedChoiceCandidates Ord.compare .ok
      [⟨"oauth/openai/a", none, none⟩, ⟨"oauth/openai/b", none, none⟩] = .ok smallPool := rfl
  exact (round_robin_serves_iff hcandidates rfl rfl).mpr (by decide) (some "oauth/openai/a")
    [⟨0, fun _ => none⟩, ⟨0, fun _ => none⟩] rfl ⟨"oauth/openai/b", 1, none⟩
      (List.mem_cons_of_mem _ List.mem_cons_self)

end RoundRobin

end ClawRouter.Selection
