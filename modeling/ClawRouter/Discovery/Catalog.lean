/-
  Subject:   What a catalog says can be used, and what a request is given (src/worker/discovery.ts,
             `clientInventory`; src/worker/access.ts, `accessSessionIdentity`; src/worker/
             grant-selection.ts; src/worker/provider-auth.ts as far as it reads the model).

  Both see one instant of the authority and the grants. The catalog filters the pool of a policy once,
  without a requirement, and asks of every endpoint and group of models what is left; a request filters
  it for its own endpoint and model.

  * `selectProviderPolicy`, `accessSessionIdentity`, `resolveGrantSelection`: the request.
-/
import ClawRouter.Selection.Pool

namespace ClawRouter.Discovery

open Fallible Grants Selection

/-! ## 1. The registry -/

/-- A model of the compiled catalog. -/
structure CompiledModel where
  id : String
  upstream : String
  capabilities : List String
  deriving DecidableEq

/-- A capability and the endpoint it is served at. -/
structure Capability where
  id : String
  endpoint : String
  deriving DecidableEq

/-- The lifecycle of a managed endpoint, with the endpoints of its other operations. -/
structure Lifecycle where
  protocol : String
  retrieve : String
  cancel : Option String
  result : Option String
  /-- `files?.metadata` and `files?.download`. -/
  metadata : Option String
  download : Option String

/-- An endpoint, with what dispatch asks of it. -/
structure Endpoint extends CompiledEndpoint where
  lifecycle : Option Lifecycle
  /-- `responsesControl` has it: the catalog does not list it. -/
  control : Bool

def Endpoint.protocol (E : Endpoint) : Option String := E.lifecycle.map (·.protocol)

/-- `lifecycleEndpoints` of a managed requirement. -/
def Lifecycle.endpoints (lifecycle : Lifecycle) : List String :=
  some lifecycle.retrieve :: [lifecycle.cancel, lifecycle.result, lifecycle.metadata, lifecycle.download]
    |>.filterMap id

/-- A provider of the catalog. -/
structure Provider where
  id : String
  endpoints : List Endpoint
  models : List CompiledModel
  capabilities : List Capability
  /-- `tokenRef` of its OAuth scheme. -/
  oauthTokenRef : Option String

def Provider.toCompiledProvider (P : Provider) : CompiledProvider :=
  ⟨P.id, P.endpoints.map (·.toCompiledEndpoint)⟩

def universal : String := "cloudflare_ai_gateway.universal"

/-- `models.filter(row => row.id === model || row.upstream === model)`. -/
def Provider.rows (P : Provider) (model : Option String) : List CompiledModel :=
  P.models.filter fun row => some row.id = model || some row.upstream = model

def miniMaxFrozenVideoModels : List String :=
  ["MiniMax-Hailuo-2.3", "MiniMax-Hailuo-02", "MiniMax-Hailuo-2.3-Fast", "I2V-01-Director",
    "I2V-01-live", "I2V-01"]

def isMiniMaxVideoModel (model : String) : Bool := miniMaxFrozenVideoModels.contains model

def openRouterPcmModel (P : Provider) (model : Option String) : Bool :=
  P.id = "openrouter" &&
    ((P.models.find? fun row => some row.id = model).map (·.upstream)).or model =
      some "google/gemini-3.1-flash-tts-preview"

def isQualifiedVertexModelLocation (upstream location : String) : Bool :=
  upstream = "claude-sonnet-4-6" &&
    ["global", "us-east5", "europe-west1", "asia-southeast1"].contains location

/-! ## 2. What a grant supports -/

/-- What provider-auth.ts says of a grant, apart from the model that is asked for. -/
structure ProviderAuth (Bindings : Type) where
  localeCompare : LocaleCompare
  toLowerCase : String → String
  /-- The conditions of `grantSupports` that read neither the model nor the lifecycle. -/
  apart : Endpoint → Mode → Int → PoolGrant Bindings → Bool
  /-- The `allowedEndpoints` of `transportForGrant`. -/
  allowedEndpoints : PoolGrant Bindings → Option (List String)
  /-- The models of `readMiniMaxVideoBinding`. -/
  videoModels : PoolGrant Bindings → List String
  /-- The location of `vertexAnthropicProjection`. -/
  vertexLocation : PoolGrant Bindings → Option String
  /-- The owned key that the PCM profile asks for. -/
  ownedKey : Mode → PoolGrant Bindings → Bool
  /-- What `assertOperationConfiguration` asks after `grantSupports`. -/
  configured : Endpoint → Mode → PoolGrant Bindings → Bool

section Supports

variable {Bindings : Type} (A : ProviderAuth Bindings) (P : Provider) (E : Endpoint)

/-- `miniMaxVideoRequirement` and `miniMaxVideoBindingModel`. -/
def videoSupports (model : Option String) (grant : PoolGrant Bindings) : Bool :=
  P.id = "minimax" && model.any fun m => isMiniMaxVideoModel m &&
    (P.models.filter fun row => row.upstream = m).length = 1 &&
    (A.videoModels grant).contains m

/-- The one row of `miniMaxMusicRequirement` and `miniMaxImageRequirement`. -/
def nativeRow (upstreams : List String) (capability : String) (model : Option String) : Bool :=
  P.id = "minimax" &&
    match P.rows model with
    | [row] => upstreams.contains row.upstream && row.capabilities.contains capability
    | _ => false

/-- The one row of the provider, at a location that has it. -/
def vertexSupports (model : Option String) (grant : PoolGrant Bindings) : Bool :=
  match A.vertexLocation grant, P.rows model with
  | some location, [row] => isQualifiedVertexModelLocation row.upstream location
  | _, _ => false

/-- What `bindingSupportsOperation` asks of a managed lifecycle. -/
def lifecycleSupported (mode : Mode) (grant : PoolGrant Bindings) : Bool :=
  mode = .http && E.lifecycle.any fun lifecycle => lifecycle.endpoints.all fun id =>
    P.endpoints.any (·.id = id) && (A.allowedEndpoints grant).all (·.contains id)

def grantSupports (mode : Mode) (model : Option String) (managedLifecycle : Bool) (now : Int)
    (grant : PoolGrant Bindings) : Bool :=
  A.apart E mode now grant && (!managedLifecycle || lifecycleSupported A P E mode grant) &&
    (E.protocol ≠ some "minimax.video" || videoSupports A P model grant) &&
    (E.requestFormat ≠ "minimax.search" || model.isNone) &&
    (E.requestFormat ≠ "minimax.music" ||
      nativeRow P ["music-2.6", "music-2.6-free"] "music.generate" model) &&
    (E.requestFormat ≠ "minimax.images" || nativeRow P ["image-01"] "image.generate" model) &&
    (P.id ≠ "anthropic-vertex" || vertexSupports A P model grant) &&
    (E.requestFormat ≠ "openai.audio_speech" || !openRouterPcmModel P model || A.ownedKey mode grant)

/-- The rounds of `assertOperationConfiguration` over the lifecycle. -/
def lifecycleConfigured (now : Int) (grant : PoolGrant Bindings) : Bool :=
  E.lifecycle.all fun lifecycle => lifecycle.endpoints.all fun id =>
    (P.endpoints.find? (·.id = id)).any fun E =>
      grantSupports A P E .http none false now grant && A.configured E .http grant

/-- `assertOperationConfiguration` lets the grant through. -/
def assertOperationConfiguration (mode : Mode) (model : Option String) (managedLifecycle : Bool)
    (now : Int) (grant : PoolGrant Bindings) : Bool :=
  grantSupports A P E mode model managedLifecycle now grant &&
    (!managedLifecycle || lifecycleConfigured A P E now grant) && A.configured E mode grant

def surroundings : Surroundings Bindings where
  localeCompare :=
  A.localeCompare
  toLowerCase := A.toLowerCase
  providers := [P.toCompiledProvider]
  grantSupports := fun r now grant =>
    grantSupports A P E r.mode r.model r.managedLifecycle now grant
  operationConfigured := fun r now grant =>
    assertOperationConfiguration A P E r.mode r.model r.managedLifecycle now grant

/-- Without a requirement no grant is turned away. -/
def unqualified (W : Surroundings Bindings) : Surroundings Bindings :=
  { W with grantSupports := fun _ _ _ => true }

/-- What a catalog and the choice of a policy ask. -/
def requirementFor (model : Option String) : GrantRequirement :=
  ⟨P.toCompiledProvider, E.toCompiledEndpoint, .http, model, false⟩

/-- What the dispatch asks of the policy's pool. -/
def dispatchRequirement (model : Option String) : GrantRequirement :=
  { requirementFor P E model with managedLifecycle := E.lifecycle.isSome }

end Supports

/-! ## 3. Policies and their pools -/

/-- `AccessPolicyEntry`, with the key of its selections at a provider. -/
structure AccessPolicyEntry where
  policyId : String
  enabled : Bool
  providers : List String
  models : Option (List String)
  tenantId : Option String
  grantRouting : GrantRoutingPolicy
  poolKey : PoolKey

/-- The policies of a session, as `sessionPolicies` gives them. -/
structure SessionPolicies where
  entries : List AccessPolicyEntry
  enabled : ∀ e ∈ entries, e.enabled = true
  distinct : (entries.map (·.policyId)).Nodup

def AccessPolicyEntry.lists (e : AccessPolicyEntry) (providerId : String) : Bool :=
  e.providers.isEmpty || e.providers.contains providerId

def policyAllowsModel (e : AccessPolicyEntry) (providerId modelId : String) : Bool :=
  e.lists providerId && e.models.all (·.contains modelId)

/-- The keys of a pool and their states. -/
structure AdmissionPool where
  keys : List String
  states : String → Option GrantRuntimeState

def defaultKeys (policyId tenantId tokenRef : String) : List String :=
  ["oauth/" ++ policyId ++ "/" ++ tokenRef, "oauth/tenants/" ++ tenantId ++ "/" ++ tokenRef]

/-- What is seen at one instant: the time, the pools of the authority, and the grants. -/
structure Instant (Bindings : Type) where
  now : Int
  pool : (providerId policyId tenantId : String) → (defaultKeys : List String) → AdmissionPool
  grants : String → Option (PoolGrant Bindings)

section Candidates

variable {Bindings : Type} (A : ProviderAuth Bindings) (P : Provider) (I : Instant Bindings)

/-- The keys of a policy itself and of its tenant. -/
def ownKeys (e : AccessPolicyEntry) : List String :=
  defaultKeys e.policyId (e.tenantId.getD "default") (P.oauthTokenRef.getD P.id)

def resolvedPool (e : AccessPolicyEntry) : AdmissionPool :=
  I.pool P.id e.policyId (e.tenantId.getD "default") (ownKeys P e)

/-- The keys and grants of `resolveGrantCandidates`. -/
def poolCandidates (e : AccessPolicyEntry) : List (PoolCandidate Bindings × Option GrantRuntimeState) :=
  let pool := resolvedPool P I e
  (ownKeys P e ++ pool.keys).eraseDups.map fun key =>
    (⟨key, I.grants key⟩, (I.grants key).bind fun g => currentGrantRuntime g (pool.states key))

def policyGrantCandidates (W : Surroundings Bindings) (requirement : GrantRequirement)
    (e : AccessPolicyEntry) : GrantCandidates Bindings :=
  filterGrantCandidates W requirement (poolCandidates P I e) [] e.grantRouting .free I.now

/-- The pool of a policy. -/
structure PolicyPool (Bindings : Type) where
  entry : AccessPolicyEntry
  candidates : GrantCandidates Bindings

/-- A pool with the grants that support the requirement. -/
def PolicyPool.supporting (W : Surroundings Bindings) (requirement : GrantRequirement) (now : Int)
    (pool : PolicyPool Bindings) : PolicyPool Bindings :=
  { pool with candidates := { pool.candidates with
      available := pool.candidates.available.filter fun e => W.grantSupports requirement now e.grant } }

def PolicyPool.hasAvailable (pool : PolicyPool Bindings) : Bool := !pool.candidates.available.isEmpty

def selectPolicyCandidates (W : Surroundings Bindings) (requirement : GrantRequirement) (now : Int)
    (pools : List (PolicyPool Bindings)) : Option (PolicyPool Bindings) :=
  let compatible := pools.map (PolicyPool.supporting W requirement now)
  (compatible.find? PolicyPool.hasAvailable).or compatible.head?

end Candidates

/-! ## 4. The catalog -/

section Inventory

variable {Bindings : Type} (A : ProviderAuth Bindings) (P : Provider) (I : Instant Bindings)

/-- The model that the requirement of a group names. -/
def modelRequirement (model : CompiledModel) : Option String :=
  if P.id = "minimax" ∧ isMiniMaxVideoModel model.upstream = true then
    if (P.models.filter fun card => card.id = model.id || card.upstream = model.upstream).length = 1 then
      some model.upstream
    else none
  else if P.id = "anthropic-vertex" ∨
      P.id = "minimax" ∧ ["image-01", "music-2.6", "music-2.6-free"].contains model.upstream = true ∨
      openRouterPcmModel P (some model.id) = true then
    some model.id
  else none

/-- An entry of `[...provider.models, null, undefined]`: a model, a request without one, or a model that
    is passed through. -/
inductive Slot
  | card (model : CompiledModel)
  | noModel
  | anyModel

def slots : List Slot := P.models.map .card ++ [.noModel, .anyModel]

def Slot.allows (slot : Slot) (e : AccessPolicyEntry) : Bool :=
  match slot with
  | .card model => policyAllowsModel e P.id model.id
  | .noModel => true
  | .anyModel => e.models.isNone

def Slot.requirement : Slot → Option String
  | .card model => modelRequirement P model
  | .noModel => none
  | .anyModel => none

def matching (pools : List (PolicyPool Bindings)) (slot : Slot) : List (PolicyPool Bindings) :=
  pools.filter fun pool => slot.allows P pool.entry

/-- The pools that serve the same models. -/
structure Group (Bindings : Type) where
  pools : List (PolicyPool Bindings)
  /-- A request without a model has no id. -/
  modelIds : List (Option String)
  passthrough : Bool
  modelRequirement : Option String

abbrev GroupKey := List String × Option String

def slotKey (pools : List (PolicyPool Bindings)) (slot : Slot) : GroupKey :=
  ((matching P pools slot).map (·.entry.policyId), slot.requirement P)

def Group.note (group : Group Bindings) : Slot → Group Bindings
  | .card model => { group with modelIds := group.modelIds ++ [some model.id] }
  | .noModel => { group with modelIds := group.modelIds ++ [none] }
  | .anyModel => { group with passthrough := true }

def freshGroup (pools : List (PolicyPool Bindings)) (slot : Slot) : Group Bindings :=
  ⟨matching P pools slot, [], false, slot.requirement P⟩

/-- One round of the loop that groups the models. -/
def addSlot (pools : List (PolicyPool Bindings)) (grouped : List (GroupKey × Group Bindings)) (slot : Slot) :
    List (GroupKey × Group Bindings) :=
  let key := slotKey P pools slot
  if grouped.any (·.1 = key) then grouped.map fun g => if g.1 = key then (g.1, g.2.note slot) else g
  else grouped ++ [(key, (freshGroup P pools slot).note slot)]

def poolGroups (pools : List (PolicyPool Bindings)) : List (Group Bindings) :=
  ((slots P).foldl (addSlot P pools) []).map (·.2)

/-- Why nothing is selected. -/
inductive Refusal
  /-- `assertProviderAccess` refuses. -/
  | access (code : String)
  /-- No grant of the pool supports the operation as it is configured. -/
  | pool
  /-- There is no pool, and the environment does not configure the operation. -/
  | environment (code : String)
  /-- What endpoints of a special kind ask besides. -/
  | profile (code : String)
  deriving DecidableEq

/-- What an inspection asks of other modules: the code of a refusal, if there is one. -/
structure Checks (Bindings : Type) where
  assertProviderAccess : AccessPolicyEntry → Option String
  environment : GrantRequirement → Option String
  profile : AccessPolicyEntry → List (SelectedGrant Bindings) → Option String

/-- The part of a context that says whether the operation can be used. -/
structure Context (Bindings : Type) where
  auth : AccessPolicyEntry
  available : List (SelectedGrant Bindings)
  refusal : Option Refusal
  temporarilyUnavailable : Bool

def inspect (C : Checks Bindings) (W : Surroundings Bindings) (requirement : GrantRequirement)
    (selection : PolicyPool Bindings) : Context Bindings :=
  let auth := selection.entry
  match C.assertProviderAccess auth with
  | some code => ⟨auth, [], some (.access code), false⟩
  | none =>
    let available := activeOperationCandidates W requirement I.now selection.candidates.available
    let configuredGrants := if available.isEmpty then
        activeOperationCandidates W requirement I.now (selection.candidates.recovering.map (·.entry))
      else available
    let profile := (C.profile auth configuredGrants).map .profile
    if !available.isEmpty then ⟨auth, available, profile, false⟩
    else if selection.candidates.hasConfiguredGrant then
      if configuredGrants.isEmpty then ⟨auth, available, some .pool, false⟩
      else ⟨auth, available, profile, true⟩
    else
      match C.environment requirement with
      | some code => ⟨auth, available, some (.environment code), false⟩
      | none => ⟨auth, available, profile, false⟩

/-- The pools of a provider: each policy that has it, filtered without a requirement. -/
def providerPools (E : Endpoint) (policies : SessionPolicies) : List (PolicyPool Bindings) :=
  (policies.entries.filter fun e => e.enabled && e.lists P.id).map fun e =>
    ⟨e, policyGrantCandidates P I (unqualified (surroundings A P E)) (requirementFor P E none) e⟩

def execution (C : Checks Bindings) (E : Endpoint) (group : Group Bindings) : Option (Context Bindings) :=
  let requirement := requirementFor P E group.modelRequirement
  let candidates := if E.requestFormat = universal then group.pools.filter fun pool =>
    pool.entry.models.isNone
    else group.pools
  (selectPolicyCandidates (surroundings A P E) requirement I.now candidates).map
    (inspect I C (surroundings A P E) requirement)

def Group.hasModel (group : Group Bindings) (model : CompiledModel) : Bool :=
  group.modelIds.contains (some model.id) ||
    group.passthrough && !P.models.any fun candidate => candidate.id = model.id

/-- The first context of `effective` for the endpoint and the model. -/
def contextOf (C : Checks Bindings) (E : Endpoint) (policies : SessionPolicies) (model : CompiledModel) :
    Option (Context Bindings) :=
  if E.control then none
  else (poolGroups P (providerPools A P I E policies)).findSome? fun group =>
    if group.hasModel P model then execution A P I C E group else none

end Inventory

/-! ## 5. The request -/

section Request

variable {Bindings : Type} (A : ProviderAuth Bindings) (P : Provider) (I : Instant Bindings)

def selectProviderPolicy (E : Endpoint) (requirement : GrantRequirement) (entries : List AccessPolicyEntry) :
    Option AccessPolicyEntry :=
  let W := surroundings A P E
  (entries.find? fun e =>
    (selectPolicyCandidates W requirement I.now [⟨e, policyGrantCandidates P I W requirement e⟩]).any
      PolicyPool.hasAvailable).or entries.head?

def accessPolicyRequired : HttpError :=
  ⟨403, "access_policy_required", "this identity has no active access policy"⟩

def modelNotAllowed : HttpError :=
  ⟨403, "model_not_allowed", "model is not allowed by this identity's policies"⟩

/-- `modelId` of `accessSessionIdentity`: the id of the first row with the name. -/
def requestModelId (model : Option String) : Option String :=
  (model.filter (· ≠ "")).map fun m =>
    ((P.models.find? fun row => row.id = m || row.upstream = m).map (·.id)).getD m

def requiresModel (E : Endpoint) : Bool :=
  E.requestFormat = universal ||
    P.capabilities.any fun capability => capability.endpoint = E.id && capability.id.startsWith "llm."

/-- `accessSessionIdentity`, the policy of its identity. -/
def accessSessionIdentity (E : Endpoint) (policies : SessionPolicies) (model : Option String) :
    Answer AccessPolicyEntry := do
  let matching := policies.entries.filter fun e => e.lists P.id
  require (!matching.isEmpty) accessPolicyRequired
  let eligible := match requestModelId P model with
    | some modelId => matching.filter fun e => policyAllowsModel e P.id modelId
    | none => if requiresModel P E then matching.filter fun e => e.models.isNone else matching
  require (!eligible.isEmpty) modelNotAllowed
  demand (selectProviderPolicy A P I E (requirementFor P E model) eligible) modelNotAllowed

/-- What a choice of `resolveGrantSelection` is made of. -/
def selectionInput (W : Surroundings Bindings) (requirement : GrantRequirement) (e : AccessPolicyEntry)
    (stickyHash : Option String) (active : List (SelectedGrant Bindings)) : GrantChoiceInput where
  strategy := e.grantRouting.strategy
  stickyHash := stickyHash
  switchAtUsedPercent := some e.grantRouting.switchAtUsedPercent
  hysteresisPercent := some e.grantRouting.hysteresisPercent
  candidates := active.map fun c =>
    { key := c.key, weight := some (grantWeight c.grant),
      remainingRatio := grantQuotaRatio W.toLowerCase c.runtimeState I.now
        (e.grantRouting.staleAfterSeconds * 1000) requirement.model }

/-- What a selection resolves to. -/
structure Resolution (Bindings : Type) where
  selected : Option (SelectedGrant Bindings)
  hasConfiguredGrant : Bool
  retryAt : Option Int

/-- `resolveGrantSelection` of a policy; the authority chooses, where the selection is recorded. -/
def resolveGrantSelection (E : Endpoint) (e : AccessPolicyEntry) (model stickyHash : Option String)
    (recordSelection : Bool) (random : UInt32) : StateT Tables Answer (Resolution Bindings) := do
  let W := surroundings A P E
  let requirement := dispatchRequirement P E model
  let candidates := policyGrantCandidates P I W requirement e
  let active := activeOperationCandidates W requirement I.now candidates.available
  let selected ← if active.isEmpty then pure none
    else if !recordSelection then pure active.head?
    else do
      let key ← selectGrant W.localeCompare random e.poolKey.text I.now
        (selectionInput I W requirement e stickyHash active)
      pure (active.find? fun c => c.key = key)
  return ⟨selected, candidates.hasConfiguredGrant,
    if selected.isSome then none else poolRetryAt W requirement I.now candidates⟩

end Request

end ClawRouter.Discovery
