/-
  Subject:   How one grant of a pool is chosen (src/worker/grant-selection-strategies.ts).

  The authority, over its tables, and an isolate, over the snapshot it was given, choose with the same
  code. A choice reads the cursor of the pool or the counters of its grants, as the strategy wants; two
  strategies leave a new cursor.

  * `chooseGrantKey_state`: what of the counters and of the random word a choice may read.

  `localeCompare` is a parameter; numbers are IEEE doubles.
-/
import ClawRouter.Http
import Mathlib.Data.List.Sort

namespace ClawRouter.Selection

/-! ## 1. Candidates -/

/-- How a grant is chosen. -/
inductive Strategy
  | priority
  | roundRobin
  | leastUsed
  | mostRemaining
  | threshold
  | weightedRandom
  deriving DecidableEq

/-- A grant, as a strategy weighs it. -/
structure ChoiceEntry where
  key : String
  weight : Option Float
  remainingRatio : Option Float

/-- A candidate of a choice. -/
structure GrantChoiceCandidate where
  key : String
  weight : Float
  remainingRatio : Option Float

/-- A choice that is asked for. -/
structure GrantChoiceInput where
  strategy : Strategy
  stickyHash : Option String
  switchAtUsedPercent : Option Float
  hysteresisPercent : Option Float
  candidates : List ChoiceEntry

/-- How often a grant was chosen, and when last. -/
structure Counter where
  count : Nat
  lastMs : Int
  deriving DecidableEq

/-- What the choices before have left. -/
structure GrantChoiceState where
  cursorKey : Option String
  counts : String → Option Counter

/-- A cursor that a choice leaves is the chosen key. -/
structure GrantChoice where
  selectedKey : String
  cursorKey : Option String
  own : ∀ c ∈ cursorKey, c = selectedKey
  deriving DecidableEq

abbrev LocaleCompare := String → String → Ordering

/-- The sign of `a - b`, where what is not a number is no difference. -/
def difference (a b : Float) : Ordering := if a < b then .lt else if b < a then .gt else .eq

def sortBy {α : Type} (order : α → α → Ordering) (l : List α) : List α :=
  l.insertionSort fun a b => order a b ≠ .gt

def setCandidate (seen : List GrantChoiceCandidate) (c : GrantChoiceCandidate) : List GrantChoiceCandidate :=
  if seen.any (·.key = c.key) then seen.map fun d => if d.key = c.key then c else d
  else seen ++ [c]

/-- `[...new Map(l.map(c => [c.key, c])).values()]`: the last of a key, in the place of its first. -/
def lastOfKey (l : List GrantChoiceCandidate) : List GrantChoiceCandidate := l.foldl setCandidate []

def choiceWeight (weight : Option Float) : Float :=
  match weight with
  | some w => if w.isFinite && 0 < w && w ≤ 1000000 then w else 1
  | none => 1

def choiceRatio (ratio : Option Float) : Option Float := ratio.filter fun r => r.isFinite && 0 ≤ r && r ≤ 1

/-- `normalizedChoiceCandidates`; `key` validates. -/
def normalizedChoiceCandidates (compare : LocaleCompare) (key : String → Except HttpError String)
    (candidates : List ChoiceEntry) : Except HttpError (List GrantChoiceCandidate) := do
  let normalized ← candidates.mapM fun c => do
    return { key := ← key c.key, weight := choiceWeight c.weight, remainingRatio :=
      choiceRatio c.remainingRatio }
  return sortBy (fun a b => compare a.key b.key) (lastOfKey normalized)

/-! ## 2. Strategies -/

/-- The first code unit of a character, `charCodeAt(0)`. -/
def charCode (c : Char) : UInt32 :=
  if c.toNat < 0x10000 then c.toNat.toUInt32 else (0xd800 + (c.toNat - 0x10000) / 0x400).toUInt32

def stickyUnit (hash key : String) : Float :=
  let value : UInt32 := (hash ++ ":" ++ key).toList.foldl
    (fun value c => (value ^^^ charCode c) * 16777619) 2166136261
  (value.toNat + 1).toFloat / 4294967296

def stickyScore (hash : String) (candidate : GrantChoiceCandidate) : Float :=
  -Float.log (stickyUnit hash candidate.key) / candidate.weight

def weightedRandom (random : UInt32) (candidates : List GrantChoiceCandidate) : Option GrantChoiceCandidate :=
  let total := candidates.foldl (fun sum c => sum + c.weight) 0
  let target := random.toNat.toFloat / 4294967296 * total
  go target 0 candidates
where
  go (target cursor : Float) : List GrantChoiceCandidate → Option GrantChoiceCandidate
    | [] => none
    | [c] => some c
    | c :: rest => if target < cursor + c.weight then some c else go target (cursor + c.weight) rest

def boundedPercent (value : Option Float) (fallback : Float) : Float :=
  match value with
  | some v => if v.isFinite && 0 ≤ v && v ≤ 100 then v else fallback
  | none => fallback

/-- The most of what remains first, and then by key. -/
def healthier (compare : LocaleCompare) (a b : GrantChoiceCandidate) : Ordering :=
  (difference (b.remainingRatio.getD (-1)) (a.remainingRatio.getD (-1))).then (compare a.key b.key)

/-- What a candidate must have left to be switched to. -/
def switchable (current : GrantChoiceCandidate) (ratio cutoff hysteresis : Float)
    (candidate : GrantChoiceCandidate) : Bool :=
  candidate.key ≠ current.key && candidate.remainingRatio.any fun r =>
    cutoff + 1e-9 < r && ratio + hysteresis ≤ r + 1e-9

def selectThresholdGrantKey (compare : LocaleCompare) (candidates : List GrantChoiceCandidate)
    (currentKey : Option String) (switchAtUsedPercent hysteresisPercent : Float) : Option String :=
  let healthiest := (sortBy (healthier compare) candidates).head?
  match candidates.find? fun c => some c.key = currentKey with
  | none => healthiest.map (·.key)
  | some current =>
    match current.remainingRatio with
    | none => some current.key
    | some ratio =>
      let cutoff := 1 - boundedPercent (some switchAtUsedPercent) 90 / 100
      if cutoff + 1e-9 < ratio then some current.key
      else
        let hysteresis := boundedPercent (some hysteresisPercent) 10 / 100
        let better := sortBy (healthier compare)
          (candidates.filter (switchable current ratio cutoff hysteresis))
        some ((better.head?.map (·.key)).getD current.key)

/-- The code units of a text, which `>` compares. -/
def codeUnits (s : String) : List Nat :=
  s.toList.flatMap fun c =>
    if c.toNat < 0x10000 then [c.toNat]
    else [0xd800 + (c.toNat - 0x10000) / 0x400, 0xdc00 + (c.toNat - 0x10000) % 0x400]

def isDigest (hash : String) : Bool :=
  hash.length = 64 && hash.toList.all fun c => c.isDigit || ('a' ≤ c && c ≤ 'f')

/-- The least used first, then the one not used for longest, and then by key. -/
def lessUsed (compare : LocaleCompare) (counts : String → Option Counter)
    (a b : GrantChoiceCandidate) : Ordering :=
  let used (c : GrantChoiceCandidate) : Counter := (counts c.key).getD ⟨0, 0⟩
  ((Ord.compare (used a).count (used b).count).then (Ord.compare (used a).lastMs (used b).lastMs)).then
    (compare a.key b.key)

def advance (candidate : GrantChoiceCandidate) : GrantChoice where
  selectedKey :=
  candidate.key
  cursorKey := some candidate.key
  own := fun _ h => (Option.some.inj h).symm

def keep (candidate : GrantChoiceCandidate) : GrantChoice where
  selectedKey :=
  candidate.key
  cursorKey := none
  own := nofun

/-- `chooseGrantKey`, with the random word; there is none of no candidates. -/
def chooseGrantKey (compare : LocaleCompare) (random : UInt32) (input : GrantChoiceInput)
    (candidates : List GrantChoiceCandidate) (state : GrantChoiceState) : Option GrantChoice :=
  match input.stickyHash.filter isDigest with
  | some hash =>
    (sortBy (fun a b => (difference (stickyScore hash a) (stickyScore hash b)).then
      (compare a.key b.key)) candidates).head?.map keep
  | none =>
    match input.strategy with
    | .priority => candidates.head?.map keep
    | .roundRobin =>
      let next := candidates.find? fun c => codeUnits (state.cursorKey.getD "") < codeUnits c.key
      (next.or candidates.head?).map advance
    | .leastUsed => (sortBy (lessUsed compare state.counts) candidates).head?.map keep
    | .mostRemaining => (sortBy (healthier compare) candidates).head?.map keep
    | .threshold =>
      let key := selectThresholdGrantKey compare candidates state.cursorKey
        (boundedPercent input.switchAtUsedPercent 90) (boundedPercent input.hysteresisPercent 10)
      ((candidates.find? fun c => some c.key = key).or candidates.head?).map advance
    | .weightedRandom => (weightedRandom random candidates).map keep

/-! ## 3. What a choice reads -/

section Choice

variable {compare : LocaleCompare} {random random' : UInt32} {input : GrantChoiceInput}
  {candidates : List GrantChoiceCandidate}

/-- **A choice reads the counters only where the least used is wanted, and the random word only where
chance decides.** -/
theorem chooseGrantKey_state {cursorKey : Option String} {counts counts' : String → Option Counter}
    (hrandom : input.strategy ≠ .weightedRandom) (hcounts : input.strategy = .leastUsed → counts = counts') :
    chooseGrantKey compare random input candidates ⟨cursorKey, counts⟩ =
      chooseGrantKey compare random' input candidates ⟨cursorKey, counts'⟩ := by
  unfold chooseGrantKey
  split
  · rfl
  · cases h : input.strategy with
    | priority | roundRobin | mostRemaining | threshold => rfl
    | leastUsed => rw [hcounts h]
    | weightedRandom => exact absurd h hrandom

/-! ## 4. There is a choice -/

def Chosen (candidates : List GrantChoiceCandidate) (choice : Option GrantChoice) : Prop :=
  ∃ c ∈ candidates, choice = some (advance c) ∨ choice = some (keep c)

theorem sortBy_perm {α : Type} (order : α → α → Ordering) (l : List α) : (sortBy order l).Perm l :=
  List.perm_insertionSort _ l

theorem head_sortBy {α : Type} {order : α → α → Ordering} {l : List α} (h : l ≠ []) :
    ∃ c ∈ l, (sortBy order l).head? = some c := by
  have hperm := sortBy_perm order l
  cases hsort : sortBy order l with
  | nil =>
    rw [hsort] at hperm
    exact absurd hperm.symm.eq_nil h
  | cons c rest =>
    rw [hsort] at hperm
    exact ⟨c, hperm.subset List.mem_cons_self, rfl⟩

theorem chosen_keep_head {order : GrantChoiceCandidate → GrantChoiceCandidate → Ordering}
    (h : candidates ≠ []) : Chosen candidates ((sortBy order candidates).head?.map keep) := by
  obtain ⟨c, hc, hhead⟩ := @head_sortBy _ order _ h
  exact ⟨c, hc, .inr (by rw [hhead]; rfl)⟩

theorem chosen_advance_found {p : GrantChoiceCandidate → Bool} (h : candidates ≠ []) :
    Chosen candidates (((candidates.find? p).or candidates.head?).map advance) := by
  cases hfind : candidates.find? p with
  | some c => exact ⟨c, List.mem_of_find?_eq_some hfind, .inl rfl⟩
  | none =>
    cases candidates with
    | nil => exact absurd rfl h
    | cons c rest => exact ⟨c, List.mem_cons_self, .inl rfl⟩

theorem weightedRandom_mem (h : candidates ≠ []) :
    ∃ c ∈ candidates, weightedRandom random candidates = some c := by
  have hgo : ∀ (target : Float) (l : List GrantChoiceCandidate) (cursor : Float), l ≠ [] →
      ∃ c ∈ l, weightedRandom.go target cursor l = some c := by
    intro target l
    induction l with
    | nil => exact fun _ h => absurd rfl h
    | cons c rest ih =>
      intro cursor _
      cases rest with
      | nil => exact ⟨c, List.mem_cons_self, rfl⟩
      | cons d rest =>
        unfold weightedRandom.go
        split
        · exact ⟨c, List.mem_cons_self, rfl⟩
        · obtain ⟨e, he, hgo⟩ := ih (cursor + c.weight) (List.cons_ne_nil d rest)
          exact ⟨e, List.mem_cons_of_mem c he, hgo⟩
  exact hgo _ candidates 0 h

theorem chooseGrantKey_chosen (state : GrantChoiceState) (h : candidates ≠ []) :
    Chosen candidates (chooseGrantKey compare random input candidates state) := by
  unfold chooseGrantKey
  split
  · exact chosen_keep_head h
  · cases input.strategy with
    | priority =>
      cases candidates with
      | nil => exact absurd rfl h
      | cons c rest => exact ⟨c, List.mem_cons_self, .inr rfl⟩
    | roundRobin | threshold => exact chosen_advance_found h
    | leastUsed | mostRemaining => exact chosen_keep_head h
    | weightedRandom =>
      obtain ⟨c, hc, hrandom⟩ := @weightedRandom_mem random _ h
      exact ⟨c, hc, .inr (by rw [hrandom]; rfl)⟩

/-! ## 5. Candidates of a request -/

theorem mem_setCandidate {seen : List GrantChoiceCandidate} {c d : GrantChoiceCandidate}
    (h : d ∈ setCandidate seen c) : d ∈ seen ∨ d = c := by
  unfold setCandidate at h
  split at h
  · obtain ⟨x, hx, rfl⟩ := List.mem_map.mp h
    split
    · exact .inr rfl
    · exact .inl hx
  · rcases List.mem_append.mp h with h | h
    · exact .inl h
    · exact .inr (List.mem_singleton.mp h)

theorem setCandidate_ne_nil (seen : List GrantChoiceCandidate) (c : GrantChoiceCandidate) :
    setCandidate seen c ≠ [] := by
  unfold setCandidate
  split
  · rename_i hany
    intro e
    rw [List.map_eq_nil_iff.mp e] at hany
    cases hany
  · simp

theorem mem_lastOfKey {l : List GrantChoiceCandidate} {c : GrantChoiceCandidate}
    (h : c ∈ lastOfKey l) : c ∈ l := by
  have hfold : ∀ (l seen : List GrantChoiceCandidate), c ∈ l.foldl setCandidate seen → c ∈ seen ∨ c ∈ l := by
    intro l
    induction l with
    | nil => exact fun seen h => .inl h
    | cons d l ih =>
      intro seen h
      rcases ih _ h with h | h
      · rcases mem_setCandidate h with h | rfl
        · exact .inl h
        · exact .inr List.mem_cons_self
      · exact .inr (List.mem_cons_of_mem d h)
  rcases hfold l [] h with h | h
  · cases h
  · exact h

theorem lastOfKey_ne_nil {l : List GrantChoiceCandidate} (h : l ≠ []) : lastOfKey l ≠ [] := by
  have hfold : ∀ (l seen : List GrantChoiceCandidate), seen ≠ [] → l.foldl setCandidate seen ≠ [] := by
    intro l
    induction l with
    | nil => exact fun seen h => h
    | cons c l ih => exact fun seen _ => ih _ (setCandidate_ne_nil seen c)
  cases l with
  | nil => exact absurd rfl h
  | cons c l => exact hfold l [c] (List.cons_ne_nil c [])

def ChoiceEntry.candidate (c : ChoiceEntry) : GrantChoiceCandidate :=
  ⟨c.key, choiceWeight c.weight, choiceRatio c.remainingRatio⟩

theorem normalizedChoiceCandidates_ok {key : String → Except HttpError String} {l : List ChoiceEntry}
    (h : ∀ c ∈ l, key c.key = .ok c.key) : normalizedChoiceCandidates compare key l =
      .ok (sortBy (fun a b => compare a.key b.key) (lastOfKey (l.map ChoiceEntry.candidate))) := by
  have hmap : (l.mapM fun c : ChoiceEntry => do
      return ({ key := ← key c.key, weight := choiceWeight c.weight,
                remainingRatio := choiceRatio c.remainingRatio } : GrantChoiceCandidate)) =
      .ok (l.map ChoiceEntry.candidate) := by
    refine Fallible.mapM_ok fun c hc => ?_
    rw [h c hc]
    rfl
  unfold normalizedChoiceCandidates
  rw [hmap]
  rfl

theorem mem_normalized {l : List ChoiceEntry} {c : GrantChoiceCandidate}
    (h : c ∈ sortBy (fun a b => compare a.key b.key) (lastOfKey (l.map ChoiceEntry.candidate))) :
    ∃ e ∈ l, e.key = c.key := by
  have hmem := mem_lastOfKey ((sortBy_perm _ _).subset h)
  obtain ⟨e, he, rfl⟩ := List.mem_map.mp hmem
  exact ⟨e, he, rfl⟩

theorem normalized_ne_nil {l : List ChoiceEntry} (h : l ≠ []) :
    sortBy (fun a b => compare a.key b.key) (lastOfKey (l.map ChoiceEntry.candidate)) ≠ [] := by
  intro e
  have hperm := sortBy_perm (fun a b => compare a.key b.key) (lastOfKey (l.map ChoiceEntry.candidate))
  rw [e] at hperm
  exact lastOfKey_ne_nil (fun e => h (List.map_eq_nil_iff.mp e)) hperm.symm.eq_nil

end Choice

end ClawRouter.Selection
