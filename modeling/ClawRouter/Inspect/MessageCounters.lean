/-
  Subject:   What is kept of the usage of an Anthropic stream (src/worker/token-usage.ts,
             `messageCounters`, and the update of a `message_delta`), name by name.

  * `kept`: what is kept of it; **`lookup_messageCounters`**;
  * **`held_start`**, **`held_delta`**: the first record and an update.
-/
import ClawRouter.Inspect.Accumulator
import ClawRouter.Inspect.Readings
import ClawRouter.Lib.Members

namespace ClawRouter.Inspect

open Utf16 Js

/-! ## 1. What a record reports -/

def count (name : Text) (usage : Members) : Option Value :=
  (usage.lookup name).filter fun value => (numeric (some value)).isSome

/-- The searches, where the record says something of them. -/
def searches (usage : Members) : Option Value :=
  let serverTools := record (get usage "server_tool_use")
  if has usage "server_tool_use" && serverTools.all (has · "web_search_requests") then
    some (.obj [(text "web_search_requests",
      nullable (searchRequests (serverTools.bind (get · "web_search_requests"))))])
  else none

def modifierText (name : Text) (usage : Members) : Option Value := (usage.lookup name).map boundedText

def creationOf (usage : Members) : Option Members := record (get usage "cache_creation")

def counterTexts : List Text := counterKeys.map text

def modifierTexts : List Text := ["speed", "inference_geo", "service_tier"].map text

def creationTexts : List Text := creationCounters.map text

theorem countersOf_pick (members : Members) (keys : List String) :
    countersOf members keys = pick (keys.map text) fun name => count name members := by
  unfold countersOf pick
  rw [List.filterMap_map]
  refine List.filterMap_congr fun key _ => ?_
  show _ = ((get members key).filter _).map _
  cases get members key with
  | none => exact ite_self none
  | some value =>
    rw [Option.filter_some]
    split <;> rfl

/-! ## 2. What is kept -/

def kept (name : Text) (usage : Members) : Option Value :=
  if name = text "cache_creation" then
    (creationOf usage).map fun creation => .obj (pick creationTexts fun name => count name creation)
  else if name ∈ modifierTexts then modifierText name usage
  else if name = text "server_tool_use" then searches usage
  else if name ∈ counterTexts then count name usage
  else none

def withSearches (usage counters : Members) : Members :=
  match searches usage with
  | some value => set counters (text "server_tool_use") value
  | none => counters

/-- The counters with a member of the usage, if it is there, as a bounded text. -/
def withModifier (usage counters : Members) (key : String) : Members :=
  match get usage key with
  | some value => set counters (text key) (boundedText value)
  | none => counters

def withCreation (usage counters : Members) : Members :=
  match creationOf usage with
  | some creation => set counters (text "cache_creation") (.obj (countersOf creation creationCounters))
  | none => counters

theorem messageCounters_some (usage : Members) : messageCounters (some usage) = some (withCreation usage
      (["speed", "inference_geo", "service_tier"].foldl (withModifier usage)
        (withSearches usage (countersOf usage counterKeys)))) := by
  have hsearches : withSearches usage (countersOf usage counterKeys) =
      if has usage "server_tool_use" && (record (get usage "server_tool_use")).all
        (has · "web_search_requests") then
        set (countersOf usage counterKeys) (text "server_tool_use") (.obj [(text "web_search_requests",
          nullable (searchRequests ((record (get usage "server_tool_use")).bind
            (get · "web_search_requests"))))])
      else countersOf usage counterKeys := by
    unfold withSearches searches
    dsimp only
    split
    · rename_i heq
      split at heq
      · rename_i h
        cases heq
        rw [if_pos h]
      · cases heq
    · rename_i heq
      split at heq
      · cases heq
      · rename_i h
        rw [if_neg h]
  rw [hsearches]
  rfl

theorem lookup_withSearches (usage counters : Members) (q : Text) : (withSearches usage counters).lookup q =
      if q = text "server_tool_use" then (searches usage).or (counters.lookup q) else counters.lookup q := by
  unfold withSearches
  cases searches usage with
  | none => exact (ite_self _).symm
  | some value =>
    rw [lookup_set]
    rfl

theorem lookup_withModifier (usage counters : Members) (key : String) (q : Text) :
    (withModifier usage counters key).lookup q =
      if q = text key then (modifierText q usage).or (counters.lookup q) else counters.lookup q := by
  have hget : ∀ q, q = text key → usage.lookup q = get usage key := by
    rintro q rfl
    rfl
  unfold withModifier modifierText
  by_cases hq : q = text key
  · rw [if_pos hq, hget q hq]
    cases get usage key with
    | none => rfl
    | some value =>
      rw [lookup_set, if_pos hq]
      rfl
  · rw [if_neg hq]
    cases get usage key with
    | none => rfl
    | some value =>
      rw [lookup_set, if_neg hq]

theorem lookup_withCreation (usage counters : Members) (q : Text) : (withCreation usage counters).lookup q =
      if q = text "cache_creation" then
        ((creationOf usage).map fun creation => .obj (pick creationTexts fun name => count name creation)).or
          (counters.lookup q) else counters.lookup q := by
  unfold withCreation
  cases creationOf usage with
  | none => exact (ite_self _).symm
  | some creation =>
    rw [lookup_set, countersOf_pick]
    rfl

variable {counters delta usage : Members}

/-- **What is kept under each name.** -/
theorem lookup_messageCounters (h : messageCounters (some usage) = some counters)
    (q : Text) : counters.lookup q = kept q usage := by
  rw [messageCounters_some] at h
  cases h
  have hcounters : (countersOf usage counterKeys).lookup q = if q ∈ counterTexts then
    count q usage else none := by
    rw [countersOf_pick, lookup_pick]
    rfl
  rw [lookup_withCreation, List.foldl_cons, List.foldl_cons, List.foldl_cons, List.foldl_nil,
    lookup_withModifier,
    lookup_withModifier, lookup_withModifier, lookup_withSearches, hcounters]
  unfold kept
  by_cases hcreation : q = text "cache_creation"
  · subst hcreation
    rw [if_pos rfl, if_pos rfl, if_neg (by decide), if_neg (by decide), if_neg (by decide), if_neg
      (by decide),
      if_neg (by decide)]
    exact Option.or_none
  · rw [if_neg hcreation, if_neg hcreation]
    by_cases hmodifier : q ∈ modifierTexts
    · rw [if_pos hmodifier]
      have hother : q ≠ text "server_tool_use" ∧ q ∉ counterTexts := by
        constructor
        · rintro rfl
          exact absurd hmodifier (by decide)
        · intro hcount
          have : ∀ a ∈ modifierTexts, a ∉ counterTexts := by decide
          exact this q hmodifier hcount
      rw [if_neg hother.1, if_neg hother.2]
      simp only [Option.or_none]
      have hone : q = text "speed" ∨ q = text "inference_geo" ∨ q = text "service_tier" := by
        simpa [modifierTexts] using hmodifier
      obtain h | h | h := hone
      · subst h
        rw [if_neg (by decide), if_neg (by decide), if_pos rfl]
      · subst h
        rw [if_neg (by decide), if_pos rfl, if_neg (by decide)]
        exact Option.or_none
      · subst h
        rw [if_pos rfl, if_neg (by decide), if_neg (by decide)]
        exact Option.or_none
    · rw [if_neg hmodifier]
      have hnone : ∀ key ∈ ["speed", "inference_geo", "service_tier"], q ≠ text key := by
        rintro key hkey rfl
        exact hmodifier (List.mem_map_of_mem hkey)
      rw [if_neg (hnone _ (by decide)), if_neg (hnone _ (by decide)), if_neg (hnone _ (by decide))]
      by_cases hsearches : q = text "server_tool_use"
      · subst hsearches
        rw [if_pos rfl, if_pos rfl, if_neg (by decide)]
        exact Option.or_none
      · rw [if_neg hsearches, if_neg hsearches]

theorem distinct_messageCounters (h : messageCounters (some usage) = some counters) : Distinct counters := by
  rw [messageCounters_some] at h
  cases h
  have hsearches : Distinct (withSearches usage (countersOf usage counterKeys)) := by
    have hpick : Distinct (countersOf usage counterKeys) := by
      rw [countersOf_pick]
      exact distinct_pick (by decide) _
    unfold withSearches
    split
    · exact hpick.set _ _
    · exact hpick
  have hmodifier : ∀ (counters : Members) (key : String), Distinct counters →
      Distinct (withModifier usage counters key) := by
    intro counters key hc
    unfold withModifier
    split
    · exact hc.set _ _
    · exact hc
  have hall := hmodifier _ "service_tier" (hmodifier _ "inference_geo" (hmodifier _ "speed" hsearches))
  unfold withCreation
  split
  · exact hall.set _ _
  · exact hall

/-! ## 3. What is held -/

/-- A report a later record makes: null says nothing, and an unavailable geography neither. -/
def laterReport (name : Text) (usage : Members) : Option Value :=
  (kept name usage).filter fun value =>
    (nullish (some value)).isSome && !(name == text "inference_geo" && isText (some value) "not_available")

def bucket (name : Text) (usage : Members) : Option Value := (creationOf usage).bind (count name)

/-- What is held after a first record and later ones. -/
structure Held (first : Members) (later : List Members) (held : Members) : Prop where
  latest : ∀ q, q ≠ text "cache_creation" →
    held.lookup q = latest (kept q first :: later.map (laterReport q))
  creation : (creationOf held).isSome = (first :: later).any fun usage => (creationOf usage).isSome
  buckets : ∀ creation, creationOf held = some creation → ∀ q ∈ creationTexts,
    creation.lookup q = Js.latest ((first :: later).map (bucket q))

theorem creationOf_counters (h : messageCounters (some usage) = some counters) :
    creationOf counters = (creationOf usage).map fun creation => pick creationTexts fun name =>
      count name creation := by
  have hlookup : get counters "cache_creation" = kept (text "cache_creation") usage :=
    lookup_messageCounters h _
  unfold kept at hlookup
  rw [if_pos rfl] at hlookup
  show record (get counters "cache_creation") = _
  rw [hlookup]
  cases creationOf usage <;> rfl

theorem lookup_bucket {creation : Members} (h : messageCounters (some usage) = some counters)
    (hcreation : creationOf counters = some creation) {q : Text} (hq : q ∈ creationTexts) :
    creation.lookup q = bucket q usage := by
  rw [creationOf_counters h] at hcreation
  obtain ⟨reported, hreported, rfl⟩ := Option.map_eq_some_iff.mp hcreation
  unfold bucket
  rw [hreported, lookup_pick, if_pos hq]
  rfl

/-- **The first record.** -/
theorem held_start {first : Members} (h : messageCounters (some first) = some counters) :
    Held first [] counters := by
  refine ⟨fun q _ => ?_, ?_, fun creation hcreation q hq => ?_⟩
  · rw [lookup_messageCounters h]
    exact (latest_singleton _).symm
  · rw [creationOf_counters h, Option.isSome_map]
    exact (Bool.or_false _).symm
  · rw [lookup_bucket h hcreation hq]
    exact (latest_singleton _).symm

def reports (delta : Members) : Members :=
  delta.filter fun m =>
    (nullish (some m.2)).isSome && !(m.1 == text "inference_geo" && isText (some m.2) "not_available")

section

variable (h : messageCounters (some usage) = some delta)
include h

theorem lookup_reports (q : Text) : (reports delta).lookup q = laterReport q usage := by
  unfold reports laterReport
  rw [lookup_filter (distinct_messageCounters h), lookup_messageCounters h]

theorem creationOf_reports : creationOf (reports delta) = creationOf delta := by
  have hreports : get (reports delta) "cache_creation" = laterReport (text "cache_creation")
    usage := lookup_reports h _
  have hdelta : get delta "cache_creation" = kept (text "cache_creation") usage := lookup_messageCounters h _
  unfold creationOf
  rw [hreports, hdelta]
  unfold laterReport kept
  rw [if_pos rfl]
  cases creationOf usage with
  | none => rfl
  | some creation => rfl

theorem lookup_deltaUpdates (held : Members)
    (q : Text) : (Accumulator.deltaUpdates delta held).lookup q = if q = text "cache_creation" then
        (creationOf delta).map fun creation => .obj (assign ((creationOf held).getD []) creation)
      else laterReport q usage := by
  have hunfold : Accumulator.deltaUpdates delta held = match creationOf (reports delta) with
      | some creation =>
        set (reports delta) (text "cache_creation") (.obj (assign ((creationOf held).getD []) creation))
      | none => reports delta := rfl
  rw [hunfold, creationOf_reports h]
  cases hcreation : creationOf delta with
  | some creation =>
    rw [lookup_set, lookup_reports h]
    rfl
  | none =>
    rw [lookup_reports h]
    split
    · rename_i hq
      subst hq
      rw [creationOf_counters h, Option.map_eq_none_iff] at hcreation
      unfold laterReport kept
      rw [if_pos rfl, hcreation]
      rfl
    · rfl

theorem distinct_deltaUpdates (held : Members) : Distinct (Accumulator.deltaUpdates delta held) := by
  have hreports : Distinct (reports delta) := (distinct_messageCounters h).filter _
  show Distinct (match creationOf (reports delta) with
    | some creation => set (reports delta) (text "cache_creation") (.obj (assign ((creationOf held).getD []) creation))
    | none => reports delta)
  split
  · exact hreports.set _ _
  · exact hreports

end

/-- **An update** keeps each name at its latest report, and each bucket of a cache creation. -/
theorem held_delta {first held : Members} {later : List Members} (hheld : Held first later held)
    (h : messageCounters (some usage) = some delta) :
    Held first (later ++ [usage]) (assign held (Accumulator.deltaUpdates delta held)) := by
  have hlookup : ∀ q, (assign held (Accumulator.deltaUpdates delta held)).lookup q =
    (if q = text "cache_creation" then
        (creationOf delta).map fun creation => .obj (assign ((creationOf held).getD []) creation)
      else laterReport q usage).or (held.lookup q) := by
    intro q
    rw [lookup_assign (distinct_deltaUpdates h held), lookup_deltaUpdates h]
  have hcreated : creationOf (assign held (Accumulator.deltaUpdates delta held)) = match creationOf delta with
      | some creation => some (assign ((creationOf held).getD []) creation)
      | none => creationOf held := by
    show record ((assign held (Accumulator.deltaUpdates delta held)).lookup (text "cache_creation")) = _
    rw [hlookup, if_pos rfl]
    cases creationOf delta <;> rfl
  have hreported : (creationOf delta).isSome = (creationOf usage).isSome := by
    rw [creationOf_counters h, Option.isSome_map]
  refine ⟨fun q hq => ?_, ?_, fun creation hcreation q hq => ?_⟩
  · rw [hlookup, if_neg hq, hheld.latest q hq, List.map_append, ← List.cons_append]
    exact (latest_snoc _ _).symm
  · rw [hcreated, ← List.cons_append, List.any_append, ← hheld.creation]
    simp only [List.any_cons, List.any_nil, Bool.or_false, ← hreported]
    cases creationOf delta with
    | none => exact (Bool.or_false _).symm
    | some _ => exact (Bool.or_true _).symm
  · rw [← List.cons_append, List.map_append]
    show _ = Js.latest (_ ++ [bucket q usage])
    rw [latest_snoc]
    rw [hcreated] at hcreation
    cases hdelta : creationOf delta with
    | none =>
      rw [hdelta] at hcreation hreported
      have hnone : bucket q usage = none := by
        unfold bucket
        rw [Option.isNone_iff_eq_none.mp (Option.isSome_eq_false_iff.mp hreported.symm)]
        rfl
      rw [hnone, hheld.buckets creation hcreation q hq]
      rfl
    | some reported =>
      rw [hdelta] at hcreation
      cases hcreation
      have hdistinct : Distinct reported := by
        rw [creationOf_counters h] at hdelta
        obtain ⟨_, _, rfl⟩ := Option.map_eq_some_iff.mp hdelta
        exact distinct_pick (by decide) _
      rw [lookup_assign hdistinct, lookup_bucket h hdelta hq]
      congr 1
      cases hbefore : creationOf held with
      | some before => exact hheld.buckets before hbefore q hq
      | none =>
        -- no record so far has reported a bucket
        have hno : ∀ u ∈ first :: later, bucket q u = none := by
          intro u hu
          have hany := hheld.creation
          rw [hbefore] at hany
          have hu' : (creationOf u).isSome = false := by
            by_contra hne
            rw [Bool.not_eq_false] at hne
            exact absurd (List.any_eq_true.mpr ⟨u, hu, hne⟩) (by rw [← hany]; exact Bool.false_ne_true)
          unfold bucket
          rw [Option.isNone_iff_eq_none.mp (Option.isSome_eq_false_iff.mp hu')]
          rfl
        exact (latest_none fun value hvalue => by
          obtain ⟨u, hu, rfl⟩ := List.mem_map.mp hvalue
          exact hno u hu).symm

end ClawRouter.Inspect
