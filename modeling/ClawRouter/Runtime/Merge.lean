/-
  Subject:   The runtime state of a grant and how observations of it are merged
             (`mergeGrantRuntimeState` of src/worker/grant-runtime.ts, `quotaRuntime` of
             src/worker/grant-quota.ts).

  Instants are milliseconds, the values `Date.parse` gives for the texts of a normalized state.

  * `merge_spec`: everything a merge of two observations of one revision does.
-/
import ClawRouter.Http
import ClawRouter.Lib.Binary64
import ClawRouter.Lib.Json
import ClawRouter.Lib.Newest
import Mathlib.Algebra.Order.Field.Rat

namespace ClawRouter.Runtime

open Js Newest Fallible

/-! ## 1. States -/

/-- What a window limits. -/
inductive GrantQuotaKind
  | requests
  | tokens
  | inputTokens
  | outputTokens
  | credits
  | subscription
  | generic
  deriving DecidableEq

/-- A window as it was observed. -/
structure GrantQuotaWindow where
  observedAt : Option Int
  models : Option (List String)
  id : String
  kind : GrantQuotaKind
  unit : Option String
  window : Option String
  remaining : Option Rat
  limit : Option Rat
  resetAt : Option Int
  deriving DecidableEq

/-- The windows a response listed. -/
structure WindowSnapshot where
  observedAt : Int
  ids : List String
  deriving DecidableEq

/-- Whether a grant is available. -/
inductive RuntimeStatus
  | available
  | limited
  | cooldown
  deriving DecidableEq

/-- Where an observation is from. -/
inductive RuntimeSource
  | providerResponse
  | providerProbe
  deriving DecidableEq

/-- What a response signals. -/
inductive RuntimeSignal
  | quota
  | rateLimited
  | authentication
  deriving DecidableEq

/-- A revision: its text, and the instant it names. -/
structure GrantRevision where
  text : String
  instant : Int
  deriving DecidableEq

/-- The state of a grant, merged of observations. -/
structure GrantRuntimeState where
  status : RuntimeStatus
  observedAt : Int
  source : RuntimeSource
  cooldownUntil : Option Int
  lastSignal : RuntimeSignal
  grantRevision : Option GrantRevision
  windows : List GrantQuotaWindow
  windowSnapshots : List (String × WindowSnapshot)
  account : Option Json
  extraUsage : Option Json

/-- When a window was observed; it is read of windows with an instant of their own. -/
def GrantQuotaWindow.instant (window : GrantQuotaWindow) : Int := window.observedAt.getD 0

/-- `{ ...window, observedAt: window.observedAt ?? state.observedAt }`. -/
def GrantQuotaWindow.dated (window : GrantQuotaWindow) (observedAt : Int) : GrantQuotaWindow :=
  { window with observedAt := some (window.observedAt.getD observedAt) }

/-- The windows of a state, each with an instant of its own. -/
def GrantRuntimeState.observed (state : GrantRuntimeState) : List GrantQuotaWindow :=
  state.windows.map (·.dated state.observedAt)

/-! ## 2. The verdict of the windows -/

def defaultRateLimitCooldownMs : Int := 60000
def maxCooldownMs : Int := 24 * 60 * 60000

def latestFutureReset (windows : List GrantQuotaWindow) (nowMs : Int) : Option Int :=
  ((windows.filterMap (·.resetAt)).filter (nowMs < ·)).max?

def boundedCooldown (value nowMs : Int) : Int := max nowMs (min value (nowMs + maxCooldownMs))

def GrantQuotaWindow.exhausted (nowMs : Int) (window : GrantQuotaWindow) : Bool :=
  (window.models.getD []).isEmpty && window.remaining == some 0 && window.resetAt.all (nowMs < ·)

/-- `window.remaining / window.limit`, where there are both and the limit is not zero. -/
def GrantQuotaWindow.ratio (window : GrantQuotaWindow) : Option Rat :=
  match window.limit, window.remaining with
  | some limit, some remaining => if limit = 0 then none else some (Binary64.round (remaining / limit))
  | _, _ => none

def quotaRuntime (windows : List GrantQuotaWindow) (source : RuntimeSource) (nowMs : Int) :
    GrantRuntimeState where
  status :=
    if windows.any (·.exhausted nowMs) then .cooldown
    else if (windows.filterMap (·.ratio)).any (· ≤ Binary64.round (1 / 10)) then .limited
    else .available
  observedAt := nowMs
  source := source
  cooldownUntil :=
    let exhausted := windows.filter (·.exhausted nowMs)
    if exhausted = [] then none
    else some (boundedCooldown
      ((latestFutureReset exhausted nowMs).getD (nowMs + defaultRateLimitCooldownMs)) nowMs)
  lastSignal := .quota
  grantRevision := none
  windows := windows
  windowSnapshots := []
  account := none
  extraUsage := none

/-! ## 3. Merging -/

/-- A scope is the id of one window, or with a `*` at its end what the ids of a collection start
    with. -/
def snapshotApplies (scope id : String) : Bool :=
  if scope.toList.getLast? = some '*' then scope.toList.dropLast.isPrefixOf id.toList
  else id == scope

/-- The snapshot of a scope that leaves a window out that is no newer. -/
def retires (scope : String) (snapshot : WindowSnapshot) (window : GrantQuotaWindow) : Bool :=
  snapshotApplies scope window.id && decide (window.instant ≤ snapshot.observedAt) &&
    !snapshot.ids.contains window.id

def GrantRuntimeState.live (nowMs : Int) (state : GrantRuntimeState) : Bool :=
  state.lastSignal != .quota && state.cooldownUntil.any (nowMs < ·)

/-- The first of the live states that none is newer than. -/
def liveSignal (nowMs : Int) (previous incoming : GrantRuntimeState) : Option GrantRuntimeState :=
  if previous.live nowMs then
    if incoming.live nowMs ∧ previous.observedAt < incoming.observedAt then some incoming
    else some previous
  else if incoming.live nowMs then some incoming
  else none

/-- Whether what is stored belongs to a later revision than what arrives. -/
def keepsRevision (previous incoming : Option GrantRevision) : Bool :=
  match previous, incoming with
  | some previous, some incoming => incoming.instant < previous.instant
  | some _, none => true
  | none, _ => false

def mergedWindows (previous incoming : GrantRuntimeState) : List GrantQuotaWindow :=
  collect (·.id) (·.instant) (previous.observed ++ incoming.observed)

def mergedSnapshots (previous incoming : GrantRuntimeState) : List (String × WindowSnapshot) :=
  collect (·.1) (·.2.observedAt) (previous.windowSnapshots ++ incoming.windowSnapshots)

def invalidRuntime (message : String) : HttpError := ⟨400, "invalid_authority_request", message⟩

/-- What is left of the windows when the newest snapshot of each scope has retired its own. -/
def standingWindows (previous incoming : GrantRuntimeState) : List GrantQuotaWindow :=
  (mergedWindows previous incoming).filter fun window =>
    !(mergedSnapshots previous incoming).any fun s => retires s.1 s.2 window

/-- What two observations of one revision are merged into. -/
def mergedState (previous incoming : GrantRuntimeState) (nowMs : Int) : GrantRuntimeState :=
  let latest := if previous.observedAt ≤ incoming.observedAt then incoming else previous
  let merged := standingWindows previous incoming
  let quota := quotaRuntime merged latest.source latest.observedAt
  let signal := liveSignal nowMs previous incoming
  let snapshots := mergedSnapshots previous incoming
  { latest with
    windows := merged
    windowSnapshots := if snapshots = [] then latest.windowSnapshots else snapshots
    status := if signal.isSome then .cooldown else quota.status
    cooldownUntil := (signal.bind (·.cooldownUntil)) <|> quota.cooldownUntil
    lastSignal := (signal.map (·.lastSignal)).getD .quota
    account := incoming.account <|> previous.account
    extraUsage := incoming.extraUsage <|> previous.extraUsage }

def mergeGrantRuntimeState (previous : Option GrantRuntimeState) (incoming : GrantRuntimeState)
    (nowMs : Int) : Answer GrantRuntimeState :=
  match previous with
  | none => .ok incoming
  | some previous =>
    if previous.grantRevision ≠ incoming.grantRevision then
      .ok (if keepsRevision previous.grantRevision incoming.grantRevision then previous
        else incoming)
    else do
      require ((mergedWindows previous incoming).length ≤ 128) (invalidRuntime "too many merged quota windows")
      require ((mergedSnapshots previous incoming).length ≤ 128)
        (invalidRuntime "too many merged quota snapshots")
      return mergedState previous incoming nowMs

/-- An observation with the time it is merged at. -/
def mergeArrival (merged : Option GrantRuntimeState) (arrival : GrantRuntimeState × Int) :
    Answer (Option GrantRuntimeState) :=
  (mergeGrantRuntimeState merged arrival.1 arrival.2).map some

/-- Observations merged in the order in which they arrive. -/
def mergeAll (arrivals : List (GrantRuntimeState × Int)) : Answer (Option GrantRuntimeState) :=
  arrivals.foldlM mergeArrival none

/-! ## 4. What a merge does -/

section Merge

variable {previous incoming r : GrantRuntimeState} {nowMs : Int}

/-- **A merge of two observations of one revision.** -/
theorem merge_spec (hrev : previous.grantRevision = incoming.grantRevision)
    (h : mergeGrantRuntimeState (some previous) incoming nowMs = .ok r) :
    r = mergedState previous incoming nowMs := by
  unfold mergeGrantRuntimeState at h
  dsimp only at h
  rw [if_neg (fun hne => hne hrev)] at h
  obtain ⟨_, -, h⟩ := bind_ok.mp h
  obtain ⟨_, -, h⟩ := bind_ok.mp h
  exact (pure_ok.mp h).symm

theorem mergedState_revision (hrev : previous.grantRevision = incoming.grantRevision) :
    (mergedState previous incoming nowMs).grantRevision = incoming.grantRevision := by
  unfold mergedState
  split
  · rfl
  · exact hrev

theorem mergedState_observedAt : (mergedState previous incoming nowMs).observedAt =
      max previous.observedAt incoming.observedAt := by
  unfold mergedState
  split
  · rename_i hle
    exact (max_eq_right hle).symm
  · rename_i hle
    exact (max_eq_left (le_of_lt (not_le.mp hle))).symm

theorem mergedState_windows :
    (mergedState previous incoming nowMs).windows = standingWindows previous incoming := rfl

theorem mergeArrival_ok {merged out : Option GrantRuntimeState} {a : GrantRuntimeState × Int}
    (h : mergeArrival merged a = .ok out) :
    ∃ r, mergeGrantRuntimeState merged a.1 a.2 = .ok r ∧ out = some r := by
  unfold mergeArrival at h
  cases hone : mergeGrantRuntimeState merged a.1 a.2 with
  | error e => rw [hone] at h; cases h
  | ok r =>
    rw [hone] at h
    cases h
    exact ⟨r, rfl, rfl⟩

/-- **What every merge keeps, a list of arrivals keeps**: `P` of the states seen and of what they are
    merged into. -/
theorem mergeAll_run {P : List GrantRuntimeState → GrantRuntimeState → Prop}
    {Q : GrantRuntimeState × Int → Prop} {revision : Option GrantRevision}
    (hstep : ∀ seen r a, P seen r → Q a → P (seen ++ [a.1]) (mergedState r a.1 a.2)) :
    ∀ (arrivals : List (GrantRuntimeState × Int)) (seen : List GrantRuntimeState)
      (r : GrantRuntimeState) (out : Option GrantRuntimeState), P seen r →
      r.grantRevision = revision →
      (∀ a ∈ arrivals, Q a ∧ a.1.grantRevision = revision) →
      arrivals.foldlM mergeArrival (some r) = .ok out →
      ∃ r', out = some r' ∧ P (seen ++ arrivals.map (·.1)) r'
  | [], seen, r, out, hP, _, _, h => by
    cases h
    exact ⟨r, rfl, by rw [List.map_nil, List.append_nil]; exact hP⟩
  | a :: rest, seen, r, out, hP, hrev, hQ, h => by
    rw [List.foldlM_cons] at h
    obtain ⟨merged, hmerge, h⟩ := bind_ok.mp h
    obtain ⟨r', hone, rfl⟩ := mergeArrival_ok hmerge
    obtain ⟨ha, harev⟩ := hQ a List.mem_cons_self
    have hrevs : r.grantRevision = a.1.grantRevision := hrev.trans harev.symm
    obtain rfl := merge_spec hrevs hone
    obtain ⟨out', e, hP'⟩ := mergeAll_run hstep rest (seen ++ [a.1]) _ out (hstep seen r a hP ha)
      ((mergedState_revision hrevs).trans harev) (fun b hb => hQ b (List.mem_cons_of_mem _ hb)) h
    refine ⟨out', e, ?_⟩
    rw [List.append_assoc] at hP'
    exact hP'

theorem mergeAll_cons (a : GrantRuntimeState × Int) (rest : List (GrantRuntimeState × Int)) :
    mergeAll (a :: rest) = rest.foldlM mergeArrival (some a.1) :=
  rfl

theorem mergeAll_two {a b : GrantRuntimeState × Int} {rest : List (GrantRuntimeState × Int)}
    {out : Option GrantRuntimeState} (hrev : a.1.grantRevision = b.1.grantRevision)
    (h : mergeAll (a :: b :: rest) = .ok out) :
    rest.foldlM mergeArrival (some (mergedState a.1 b.1 b.2)) = .ok out := by
  rw [mergeAll_cons, List.foldlM_cons] at h
  obtain ⟨merged, hmerge, h⟩ := bind_ok.mp h
  obtain ⟨r, hone, rfl⟩ := mergeArrival_ok hmerge
  rw [merge_spec hrev hone] at h
  exact h

end Merge

end ClawRouter.Runtime
