/-
  Subject:   Which grants of a pool a request may use, and which one it gets
             (src/worker/grant-eligibility.ts, authority-grant-selection.ts, src/shared/grant-quota.ts).

  The code is shared: the authority runs it in the transaction of an admission, an isolate over the
  snapshot of one. What differs is how a key is chosen of the grants that are left, and that is an
  argument.

  * `selectAdmissionCandidate_congr`: two ways to choose that agree select the same grant.

  `Surroundings` has what is decided elsewhere: the collation and the case of texts, the provider
  catalog, and what provider-auth.ts says of a grant.
-/
import ClawRouter.Grants.Attachment
import ClawRouter.Selection.Strategies
import ClawRouter.Usage.Attribution
import Mathlib.Data.List.Infix

namespace ClawRouter.Selection

open Grants

/-! ## 1. Quotas -/

/-- A window, as a selection reads it. -/
structure QuotaWindow where
  models : List String
  limit : Option Float
  remaining : Option Float
  resetAt : Option Int
  observedAt : Option Int

/-- The signal of a cooldown. -/
inductive Signal
  | quota
  | rateLimited
  | authentication
  deriving DecidableEq

/-- `GrantRuntimeState`, as `normalizeGrantRuntimeState` leaves it; times are milliseconds. -/
structure GrantRuntimeState where
  observedAt : Int
  cooldownUntil : Option Int
  lastSignal : Signal
  grantRevision : Option String
  windows : List QuotaWindow

section Quota

variable (toLowerCase : String → String)

def windowApplies (window : QuotaWindow) (model : Option String) : Bool :=
  window.models.isEmpty || model.any fun m =>
    !m.isEmpty && window.models.any fun token => token.toList <:+: (toLowerCase m).toList

def QuotaWindow.open (window : QuotaWindow) (now : Int) : Bool := window.resetAt.all fun at_ => now < at_

def grantRuntimeFresh (state : Option GrantRuntimeState) (staleAfterMs now : Int)
    (model : Option String) : Bool :=
  let fresh (value : Int) : Bool := now < value + staleAfterMs
  state.any fun s =>
    let applicable := s.windows.filter fun w => windowApplies toLowerCase w model && w.open now
    fresh s.observedAt && !applicable.isEmpty && applicable.all fun w => fresh (w.observedAt.getD s.observedAt)

def least (values : List Float) : Option Float :=
  match values with
  | [] => none
  | v :: rest => some (rest.foldl (fun a b => if b < a then b else a) v)

def grantQuotaRatio (state : Option GrantRuntimeState) (now staleAfterMs : Int) (model : Option String) :
    Option Float :=
  if grantRuntimeFresh toLowerCase state staleAfterMs now model then
    state.bind fun s => least (s.windows.filterMap fun w =>
      match w.limit, w.remaining with
      | some limit, some remaining =>
        if windowApplies toLowerCase w model && limit != 0 && w.open now then
          some (if remaining / limit < 1 then remaining / limit else 1)
        else none
      | _, _ => none)
  else none

def exhaustingWindows (state : Option GrantRuntimeState) (model : Option String) (reserve : Float)
    (includeUnscoped : Bool) (now : Int) : List QuotaWindow :=
  (state.map (·.windows)).getD [] |>.filter fun w =>
    (includeUnscoped || !w.models.isEmpty) && windowApplies toLowerCase w model && w.open now &&
      w.remaining.any fun remaining =>
        remaining == 0 || w.limit.any fun limit => limit != 0 && remaining / limit * 100 ≤ reserve

def grantQuotaExhausted (state : Option GrantRuntimeState) (model : Option String) (reserve : Float)
    (includeUnscoped : Bool) (now : Int) : Bool :=
  !(exhaustingWindows toLowerCase state model reserve includeUnscoped now).isEmpty

/-- `grantQuotaResetAt`: when the last of the windows lifts, if each says when. -/
def grantQuotaResetAt (state : Option GrantRuntimeState) (model : Option String) (reserve : Float)
    (includeUnscoped : Bool) (now : Int) : Option Int :=
  let resets := (exhaustingWindows toLowerCase state model reserve includeUnscoped now).map (·.resetAt)
  if resets.all (·.isSome) then (resets.filterMap id).max? else none

end Quota

def grantCoolingDown (state : Option GrantRuntimeState) (now : Int) : Bool :=
  state.any fun s => s.cooldownUntil.any fun until_ => now < until_

/-! ## 2. Grants -/

/-- A secret as it lies in a grant that keeps its own: left out or `null`, a text, anything else. -/
inductive Scalar
  | absent
  | text (s : String)
  | other
  deriving DecidableEq

/-- `credentialRefreshBlockedUntil`: refresh is ready, its outcome is uncertain, or it waits; what is
    no date is `none`. -/
inductive RefreshBlock
  | ready
  | uncertain
  | wait (until_ : Option Int)
  deriving DecidableEq

/-- The part of `UpstreamGrant` a selection reads. What `provider-auth.ts` reads besides is in
    `bindings`. -/
structure PoolGrant (Bindings : Type) where
  enabled : Option Bool
  provider : Option String
  kind : String
  priority : Option Int
  weight : Option Float
  /-- `credentialStore === "durable_object"`. -/
  durable : Bool
  reauthRequired : Bool
  hasCredential : Bool
  hasAccessToken : Bool
  hasRefreshToken : Bool
  /-- `vertexSigningCredentialPresent`. -/
  signs : Bool
  refreshBlock : RefreshBlock
  /-- What is no date is `none`. -/
  expiresAt : Option (Option Int)
  credential : Scalar
  accessToken : Scalar
  refreshToken : Scalar
  credentials : Option (List (String × Scalar))
  updatedAt : Option String
  createdAt : Option String
  bindings : Bindings

/-- A grant that is ready, with a credential and nothing else set. -/
def sampleGrant : PoolGrant Unit where
  enabled :=
  none
  provider := none
  kind := "oauth"
  priority := none
  weight := none
  durable := true
  reauthRequired := false
  hasCredential := true
  hasAccessToken := false
  hasRefreshToken := false
  signs := false
  refreshBlock := .ready
  expiresAt := none
  credential := .absent
  accessToken := .absent
  refreshToken := .absent
  credentials := none
  updatedAt := none
  createdAt := none
  bindings := ()

def refreshMarginMs : Int := 5 * 60000

section Grant

variable {Bindings : Type}

def grantRefreshBlocked (grant : PoolGrant Bindings) (now : Int) : Bool :=
  grant.durable && match grant.refreshBlock with
    | .uncertain => true
    | .ready => false
    | .wait until_ => grant.hasRefreshToken &&
        grant.expiresAt.any (fun at_ => at_.any fun at_ => at_ ≤ now + refreshMarginMs) &&
          until_.any fun until_ => now < until_

def Scalar.filled : Scalar → Bool
  | .text s => !s.toList.all Usage.isSpace
  | _ => false

def validCredentialBundle (bundle : Option (List (String × Scalar))) : Bool :=
  bundle.all fun entries => entries.all fun e => isName 128 "_.-" e.1 && e.2.filled

def grantCredentialPresent (grant : PoolGrant Bindings) : Bool :=
  if grant.durable then
    !grant.reauthRequired && (grant.hasCredential || grant.hasAccessToken || grant.signs)
  else
    [grant.credential, grant.accessToken, grant.refreshToken].all (fun s => s = .absent || s.filled) &&
      validCredentialBundle grant.credentials &&
        ([grant.credential, grant.accessToken] ++ (grant.credentials.getD []).map (·.2)).any Scalar.filled

def grantRevision (grant : PoolGrant Bindings) : Option String := grant.updatedAt.or grant.createdAt

def currentGrantRuntime (grant : PoolGrant Bindings) (state : Option GrantRuntimeState) :
    Option GrantRuntimeState :=
  state.filter fun s => s.grantRevision = grantRevision grant

def grantPriority (grant : PoolGrant Bindings) : Int :=
  match grant.priority with
  | some p => if 0 ≤ p ∧ p ≤ 1000000 then p else 100
  | none => 100

def grantWeight (grant : PoolGrant Bindings) : Float := choiceWeight grant.weight

end Grant

def scopeTokenRef (key : String) : Option String :=
  let valid (part : String) : Bool := (grantSegment part "").isOk
  match segments key with
  | ["oauth", "tenants", scopeId, tokenRef] => if valid scopeId && valid tokenRef then some tokenRef else none
  | ["oauth", scopeId, tokenRef] => if valid scopeId && valid tokenRef then some tokenRef else none
  | _ => none

/-! ## 3. Requests -/

/-- How a request is sent. -/
inductive Mode
  | http
  | websocket
  deriving DecidableEq

/-- An endpoint of a provider. -/
structure CompiledEndpoint where
  id : String
  requestFormat : String

/-- A provider with its endpoints. -/
structure CompiledProvider where
  id : String
  endpoints : List CompiledEndpoint

/-- What a grant is to serve. -/
structure GrantRequirement where
  provider : CompiledProvider
  endpoint : CompiledEndpoint
  mode : Mode
  model : Option String
  /-- The operations of the endpoint's lifecycle are asked for too. -/
  managedLifecycle : Bool

/-- What a selection asks of other modules. -/
structure Surroundings (Bindings : Type) where
  localeCompare : LocaleCompare
  toLowerCase : String → String
  /-- `snapshot.providers`. -/
  providers : List CompiledProvider
  /-- `grantSupports`, at a time. -/
  grantSupports : GrantRequirement → Int → PoolGrant Bindings → Bool
  /-- `assertOperationConfiguration` lets the grant through. -/
  operationConfigured : GrantRequirement → Int → PoolGrant Bindings → Bool

/-- `pinnedKey`: selects freely, pins the authorization of the environment, or pins a grant. -/
inductive Pin
  | free
  | environment
  | grant (key : String)
  deriving DecidableEq

/-- What is asked of a selection. -/
structure AdmissionSelection where
  providerId : String
  endpointId : String
  mode : Mode
  model : Option String
  catalogModelId : Option String
  capability : String
  sessionHash : Option String
  excludedKeys : List String
  pinnedKey : Pin

/-- Whether a choice sticks, and to what. -/
inductive Stickiness
  | none
  | identity
  | session
  deriving DecidableEq

/-- `GrantRoutingPolicy`, as `grantRoutingPolicy` leaves it. -/
structure GrantRoutingPolicy where
  strategy : Strategy
  stickiness : Stickiness
  includedQuotaReservePercent : Float
  /-- `staleState === "deny"`. -/
  denyStale : Bool
  staleAfterSeconds : Int
  switchAtUsedPercent : Float
  hysteresisPercent : Float
  eligibleGrants : String → Option (List String)
  sharedGrants : String → List String

/-- A grant of the pool. -/
structure PoolCandidate (Bindings : Type) where
  key : String
  grant : Option (PoolGrant Bindings)

/-- The grant that is selected. -/
structure SelectedGrant (Bindings : Type) where
  key : String
  grant : PoolGrant Bindings
  runtimeState : Option GrantRuntimeState

/-- A grant that is not available yet. -/
structure Recovering (Bindings : Type) where
  entry : SelectedGrant Bindings
  atMs : Int

/-- The candidates, sorted out. -/
structure GrantCandidates (Bindings : Type) where
  available : List (SelectedGrant Bindings)
  recovering : List (Recovering Bindings)
  hasConfiguredGrant : Bool

/-- `selected` is with its `authorityRevision`. -/
structure GrantSelectionResult (Bindings : Type) where
  selected : Option (SelectedGrant Bindings × Option Int)
  hasConfiguredGrant : Bool
  retryAt : Option Int

/-! ## 4. Grants that are left -/

section Eligibility

variable {Bindings : Type} (W : Surroundings Bindings)

/-- What `filterGrantCandidates` makes of a configured grant: available, recovering at a time, or
    neither. -/
inductive Standing
  | available
  | recovering (atMs : Int)
  | out
  deriving DecidableEq

/-- What excludes a grant whatever its quotas are. -/
def barred (requirement : GrantRequirement) (excludedKeys : List String) (routing : GrantRoutingPolicy)
    (pinnedKey : Pin) (now : Int) (entry : SelectedGrant Bindings) : Bool :=
  (pinnedKey = .free && grantRefreshBlocked entry.grant now) ||
    !W.grantSupports requirement now entry.grant ||
    (pinnedKey ≠ .free && pinnedKey ≠ .grant entry.key) ||
    excludedKeys.contains entry.key ||
    (routing.eligibleGrants requirement.provider.id).any (fun refs =>
      !(scopeTokenRef entry.key).any fun tokenRef => refs.contains tokenRef) ||
    (routing.denyStale && !grantRuntimeFresh W.toLowerCase entry.runtimeState
      (routing.staleAfterSeconds * 1000) now requirement.model)

def standing (requirement : GrantRequirement) (excludedKeys : List String) (routing : GrantRoutingPolicy)
    (pinnedKey : Pin) (now : Int) (entry : SelectedGrant Bindings) : Standing :=
  if barred W requirement excludedKeys routing pinnedKey now entry then .out
  else
    let subscription := entry.grant.kind = "subscription"
    let reserve := if subscription then routing.includedQuotaReservePercent else 0
    let cooling := grantCoolingDown entry.runtimeState now
    let exhausted := grantQuotaExhausted W.toLowerCase entry.runtimeState requirement.model reserve
      subscription now
    if !cooling && !exhausted then .available
    -- A failed credential is not repaired by waiting.
    else if cooling && entry.runtimeState.any fun s => s.lastSignal = .authentication then .out
    else
      let resetAt := if exhausted then
        grantQuotaResetAt W.toLowerCase entry.runtimeState requirement.model reserve subscription now
        else some 0
      let cooldown := if cooling then (entry.runtimeState.bind (·.cooldownUntil)).getD 0 else 0
      match resetAt.map (max · cooldown) with
      | none => .out
      | some atMs =>
        if !routing.denyStale || grantRuntimeFresh W.toLowerCase entry.runtimeState
            (routing.staleAfterSeconds * 1000) atMs requirement.model then .recovering atMs
        else .out

/-- **Available**: not barred, not cooling down and not exhausted. -/
theorem standing_available {requirement : GrantRequirement} {excludedKeys : List String}
    {routing : GrantRoutingPolicy} {pinnedKey : Pin} {now : Int} {entry : SelectedGrant Bindings} :
    standing W requirement excludedKeys routing pinnedKey now entry = .available ↔
      barred W requirement excludedKeys routing pinnedKey now entry = false ∧
        grantCoolingDown entry.runtimeState now = false ∧
        grantQuotaExhausted W.toLowerCase entry.runtimeState requirement.model
          (if entry.grant.kind = "subscription" then routing.includedQuotaReservePercent else 0)
          (entry.grant.kind = "subscription") now = false := by
  unfold standing
  cases barred W requirement excludedKeys routing pinnedKey now entry with
  | true => exact iff_of_false nofun nofun
  | false =>
    rw [if_neg Bool.false_ne_true]
    dsimp only
    generalize (if entry.grant.kind = "subscription" then routing.includedQuotaReservePercent
      else 0) = reserve
    split
    · rename_i hleft
      rw [Bool.and_eq_true, Bool.not_eq_true', Bool.not_eq_true'] at hleft
      exact iff_of_true rfl ⟨rfl, hleft⟩
    · rename_i hleft
      have hright : ∀ {b c : Bool}, ¬(!b && !c) = true → ¬(b = false ∧ c = false) := by decide
      refine iff_of_false ?_ fun h => hright hleft h.2
      split
      · exact nofun
      · split
        · exact nofun
        · split <;> exact nofun

def configuredGrants (providerId : String) (candidates : List
    (PoolCandidate Bindings × Option GrantRuntimeState)) :
    List (SelectedGrant Bindings) :=
  candidates.filterMap fun c => do
    let grant ← c.1.grant
    if grant.enabled ≠ some false && (grant.provider.getD "" = "" || grant.provider = some providerId) &&
        grantCredentialPresent grant then some ⟨c.1.key, grant, c.2⟩ else none

def filterGrantCandidates (requirement : GrantRequirement)
    (candidates : List (PoolCandidate Bindings × Option GrantRuntimeState)) (excludedKeys : List String)
    (routing : GrantRoutingPolicy) (pinnedKey : Pin) (now : Int) : GrantCandidates Bindings :=
  let providerId := requirement.provider.id
  let configured := configuredGrants providerId candidates
  let of (entry : SelectedGrant Bindings) := standing W requirement excludedKeys routing pinnedKey now entry
  { available := configured.filter fun entry => of entry = .available, recovering :=
    configured.filterMap fun entry =>
      match of entry with
      | .recovering atMs => some ⟨entry, atMs⟩
      | _ => none,
    hasConfiguredGrant := !configured.isEmpty || !(routing.sharedGrants providerId).isEmpty ||
      (routing.eligibleGrants providerId).isSome || routing.denyStale ||
      match pinnedKey with
      | .grant _ => true
      | _ => false }

/-- `activeOperationCandidates`: the configured ones of the first priority. -/
def activeOperationCandidates (requirement : GrantRequirement) (now : Int)
    (available : List (SelectedGrant Bindings)) : List (SelectedGrant Bindings) :=
  let configured := available.filter fun e => W.operationConfigured requirement now e.grant
  let priority := (configured.map fun e => grantPriority e.grant).min?
  configured.filter fun e => some (grantPriority e.grant) = priority

def poolRetryAt (requirement : GrantRequirement) (now : Int)
    (candidates : GrantCandidates Bindings) : Option Int :=
  ((candidates.recovering.filter fun r => W.operationConfigured requirement now r.entry.grant).map
    (·.atMs)).min?

end Eligibility

/-! ## 5. The selection -/

/-- The routing state of a pool that both sides select from. -/
structure SelectionInput (Bindings : Type) where
  routing : GrantRoutingPolicy
  candidates : List (PoolCandidate Bindings)
  states : String → Option GrantRuntimeState
  revisions : String → Option Int
  identityHash : String
  fallbackSessionHash : String

section Selection

variable {Bindings : Type} (W : Surroundings Bindings)

def filtered (pool : SelectionInput Bindings) (requirement : GrantRequirement)
    (request : AdmissionSelection) (now : Int) : GrantCandidates Bindings :=
  filterGrantCandidates W requirement
    (pool.candidates.map fun c => (c, c.grant.bind fun g => currentGrantRuntime g (pool.states c.key)))
    request.excludedKeys pool.routing request.pinnedKey now

def active (pool : SelectionInput Bindings) (requirement : GrantRequirement)
    (request : AdmissionSelection) (now : Int) : List (SelectedGrant Bindings) :=
  activeOperationCandidates W requirement now (filtered W pool requirement request now).available

/-- What `selectAdmissionCandidate` lets choose from. -/
def choiceInput (pool : SelectionInput Bindings) (requirement : GrantRequirement)
    (request : AdmissionSelection) (now : Int) : GrantChoiceInput where
  strategy := pool.routing.strategy
  stickyHash := match pool.routing.stickiness with
    | .identity => some pool.identityHash
    | .session => some (request.sessionHash.getD pool.fallbackSessionHash)
    | .none => none
  switchAtUsedPercent := some pool.routing.switchAtUsedPercent
  hysteresisPercent := some pool.routing.hysteresisPercent
  candidates := (active W pool requirement request now).map fun e =>
    { key := e.key, weight := some (grantWeight e.grant),
      remainingRatio := grantQuotaRatio W.toLowerCase e.runtimeState now
        (pool.routing.staleAfterSeconds * 1000) request.model }

/-- The answer of `selectAdmissionCandidate`, of what was chosen. -/
def selectionResult (pool : SelectionInput Bindings) (requirement : GrantRequirement)
    (request : AdmissionSelection) (now : Int) (selectedKey : Option String) :
    GrantSelectionResult Bindings :=
  let selected := (active W pool requirement request now).find? fun e => some e.key = selectedKey
  { selected := selected.map fun e => (e, pool.revisions e.key),
    hasConfiguredGrant := (filtered W pool requirement request now).hasConfiguredGrant,
    retryAt := if selected.isSome then none
      else poolRetryAt W requirement now (filtered W pool requirement request now) }

def selectAdmissionCandidate {m : Type → Type} [Monad m] (pool : SelectionInput Bindings)
    (requirement : GrantRequirement) (request : AdmissionSelection) (now : Int)
    (choose : GrantChoiceInput → m String) : m (GrantSelectionResult Bindings) := do
  if (active W pool requirement request now).isEmpty then
    return selectionResult W pool requirement request now none
  let selectedKey ← choose (choiceInput W pool requirement request now)
  return selectionResult W pool requirement request now (some selectedKey)

end Selection

end ClawRouter.Selection
