/-
  Subject:   The records the authority keeps (src/worker/authority.ts): principals and bindings,
             users, policies, credentials and connections, and how each is normalized before it is
             stored.

  The authority is one durable object. Its tables are read and written by synchronous code only, so
  a function of this file runs in one piece.

  * `normalizePrincipal_idem`, `normalizeBinding_principal`: what is in normal form stays as it is.

  Of a policy the fields that nothing here reads are one value, `settings`.
-/
import ClawRouter.Grants.Attachment
import ClawRouter.Usage.Attribution
import Mathlib.Data.List.Lex

namespace ClawRouter.Access

open Fallible Keyed Js
open Usage (normalizeEmail trim isSpace)
open Grants (invalidAuthorityRequest)

/-! ## 1. Principals and bindings -/

/-- `{ principalType, principalId }`; the type is a text until it is checked. -/
structure Principal where
  principalType : String
  principalId : String
  deriving DecidableEq

/-- `PolicyBinding`, as it is received; a stored one has both optional fields. -/
structure PolicyBinding extends Principal where
  policyId : String
  enabled : Option Bool
  priority : Option Int
  deriving DecidableEq

/-- What a KV snapshot says about a principal. -/
structure Seed where
  principal : Principal
  bindings : List PolicyBinding

def principalKey (value : Principal) : String := value.principalType ++ ":" ++ value.principalId

def bindingKey (value : PolicyBinding) : String :=
  value.principalType ++ ":" ++ value.principalId ++ ":" ++ value.policyId

/-! ## 2. Users -/

inductive UserRole
  | admin
  | user
  deriving DecidableEq

/-- The record of a user. -/
structure AccessUserRecord where
  role : Option UserRole
  tenantId : Option String
  enabled : Option Bool
  groups : Option (List String)
  contentRetentionDisabled : Option Bool
  assignmentState : Option Json
  budgetOverrides : Option Json

/-- A user with the address it is filed under. -/
structure AccessControlUser where
  email : String
  record : AccessUserRecord

/-! ## 3. Policies, credentials, connections -/

/-- The tiers a policy allows, for some models of their own. -/
structure PolicyServiceTiers where
  allowed : List String
  models : List (String × List String)
  deriving DecidableEq

/-- A policy: what may be used under it. -/
structure AccessPolicy where
  enabled : Bool
  generation : String
  providers : List String
  models : Option (List String)
  tenantId : Option String
  serviceTiers : Option PolicyServiceTiers
  settings : Json

/-- A policy with its id. -/
structure AccessPolicyEntry where
  policyId : String
  policy : AccessPolicy

structure CopilotPublicIdentityProfile where
  integrationId : String
  editorVersion : String
  editorPluginVersion : String
  userAgent : String
  initiator : String
  deriving DecidableEq

structure CopilotPublicIdentityAttestation where
  revision : String
  profile : CopilotPublicIdentityProfile
  deriving DecidableEq

/-- `ProxyCredential`. The name may be missing, null or a text. -/
structure ProxyCredential where
  copilotPublicIdentity : Option CopilotPublicIdentityAttestation
  name : Option (Option String)
  enabled : Bool
  secretSha256 : String
  policyId : String
  policyGeneration : String
  principalId : Option String
  expiresAt : Option String
  serviceTiers : Option (List String)
  deriving DecidableEq

/-- A key with its id. -/
structure ProxyCredentialEntry where
  credentialId : String
  credential : ProxyCredential
  deriving DecidableEq

/-- A provider that is connected. -/
structure ProviderConnection where
  providerId : String
  enabled : Bool
  label : Option String
  monthlyBudgetMicros : Option Int
  deriving DecidableEq

/-- `ProviderConnectionMutation`, before it is checked: a field may be missing or anything. -/
structure ProviderConnectionInput where
  providerId : String
  enabled : Option Json
  label : Option Json
  monthlyBudgetMicros : Option Json

/-- `ProviderConnectionMutation`: the fields that are there. -/
structure ProviderConnectionMutation where
  providerId : String
  enabled : Option Bool
  label : Option (Option String)
  monthlyBudgetMicros : Option (Option Int)
  deriving DecidableEq

/-- Whose keys a mutation may touch. -/
inductive CredentialScope
  | admin
  | personal
  deriving DecidableEq

/-! ## 4. The platform -/

/-- What the language gives: the case mapping, which takes the ends of a text to no white space,
    the collation and the reading of dates; and what the deployment sets. `credentialExpiry`
    (src/worker/credential-lifecycle.ts) and `normalizePolicyRecord`
    (src/worker/authority-policy.ts) are any functions: what they compute is stored and decides
    nothing here. -/
structure Platform extends Usage.CaseMapping where
  trimmed : ∀ s, trim (toLowerCase (trim s)) = toLowerCase (trim s)
  localeCompare : String → String → Ordering
  parseDate : String → Option Int
  credentialExpiry : Option Json → CredentialScope → Answer String
  contentRetentionDefault : Bool
  normalizePolicyRecord : Json → Bool → Answer AccessPolicy

section Normal

variable (platform : Platform)

/-! ## 5. Normal forms -/

/-- The identifier of a principal in lower case; the empty text where a user has no address. -/
def normalPrincipalId (value : Principal) : String :=
  let lower := platform.toLowerCase (trim value.principalId)
  if value.principalType = "user" then (normalizeEmail platform.toLowerCase lower).getD ""
  else lower

def normalizePrincipal (value : Principal) : Answer Principal := do
  let principalId := normalPrincipalId platform value
  require (principalId ≠ "" && (value.principalType = "user" || value.principalType = "group"))
    (invalidAuthorityRequest "invalid policy binding principal")
  return ⟨value.principalType, principalId⟩

def normalizeBinding (value : PolicyBinding) : Answer PolicyBinding := do
  let principal ← normalizePrincipal platform value.toPrincipal
  require (trim value.policyId ≠ "") (invalidAuthorityRequest "policyId is required")
  return { toPrincipal := principal
           policyId := trim value.policyId
           enabled := some (value.enabled.getD true)
           priority := some (value.priority.getD 100) }

/-- The UTF-16 code units of a text, which `sort` compares. -/
def utf16Units (s : String) : List Nat :=
  s.toList.flatMap fun c =>
    if c.toNat < 65536 then [c.toNat]
    else [55296 + (c.toNat - 65536) / 1024, 56320 + (c.toNat - 65536) % 1024]

/-- `[...new Set(groups)].map(item => item.trim().toLowerCase()).filter(Boolean).sort()`. -/
def normalizeGroups (groups : List String) : List String :=
  ((groups.eraseDups.map fun item => platform.toLowerCase (trim item)).filter (· ≠ "")).mergeSort
    fun a b => utf16Units a ≤ utf16Units b

def normalizeUserRecord (record : AccessUserRecord) : AccessUserRecord where
  role :=
  some (record.role.getD .user)
  tenantId := some (record.tenantId.getD "default")
  enabled := some (record.enabled.getD true)
  groups := some (normalizeGroups platform (record.groups.getD []))
  contentRetentionDisabled := some (record.contentRetentionDisabled.getD false)
  assignmentState := record.assignmentState
  budgetOverrides := record.budgetOverrides

def normalizeUser (value : AccessControlUser) : Answer AccessControlUser := do
  let email ← demand (normalizeEmail platform.toLowerCase value.email)
    (invalidAuthorityRequest "invalid access user email")
  return ⟨email, normalizeUserRecord platform value.record⟩

/-- `profileUpdate`: a saved profile neither restores a role nor overwrites a cap. -/
def profileUpdate (raw : AccessControlUser) (current : Option AccessUserRecord) : Answer AccessControlUser :=
  normalizeUser platform ⟨raw.email, { raw.record with
      role := some ((current.bind (·.role)).getD .user)
      budgetOverrides := current.bind (·.budgetOverrides) }⟩

def invalidProviderConnection (message : String) : HttpError := ⟨400, "invalid_provider_connection", message⟩

/-- A field that is a boolean where it is there. -/
def connectionEnabled : Option Json → Answer (Option Bool)
  | none => .ok none
  | some (.bool enabled) => .ok (some enabled)
  | some _ => .error (invalidProviderConnection "enabled must be a boolean")

def connectionLabel : Option Json → Answer (Option (Option String))
  | none => .ok none
  | some .null => .ok (some none)
  | some (.str label) => .ok (some (if trim label = "" then none else some (trim label)))
  | some _ => .error (invalidProviderConnection "label must be a string or null")

def connectionBudget : Option Json → Answer (Option (Option Int))
  | none => .ok none
  | some .null => .ok (some none)
  | some (.int limit) => do
    require (Budget.isSafeInteger (some limit) && 0 ≤ limit) (invalidProviderConnection
        "monthlyBudgetMicros must be a non-negative safe integer or null")
    return some (some limit)
  | some _ => .error (invalidProviderConnection "monthlyBudgetMicros must be a non-negative safe integer or null")

/-- `normalizeConnectionMutation`, without `replace`. -/
def normalizeConnectionMutation (value : ProviderConnectionInput) :
    Answer ProviderConnectionMutation := do
  return { providerId := value.providerId
           enabled := ← connectionEnabled value.enabled
           label := ← connectionLabel value.label
           monthlyBudgetMicros := ← connectionBudget value.monthlyBudgetMicros }

def isNameControl (c : Char) : Bool := c.toNat ≤ 0x1f || (0x7f ≤ c.toNat && c.toNat ≤ 0x9f)

def invalidCredential (message : String) : HttpError := ⟨400, "invalid_credential", message⟩

/-- `normalizeCredentialName`, of a text or null. -/
def normalizeCredentialName : Option String → Answer (Option String)
  | none => .ok none
  | some value => do
    require (!value.toList.any isNameControl)
      (invalidCredential "name must be a string or null without control characters")
    let name := trim value
    require (utf16Length name ≤ 80) (invalidCredential "name must be at most 80 characters")
    return if name = "" then none else some name

/-- `storedCredentialName`: legacy metadata must not block an import. -/
def storedCredentialName : Json → Option String
  | .str value =>
    match normalizeCredentialName (some value) with
    | .ok name => name
    | .error _ => none
  | _ => none

def textField (value : Json) (name : String) : Option String := (value.get? name).bind Json.str?

def notDisabled : Option Json → Bool
  | some (.bool false) => false
  | _ => true

/-- `normalizeCredentialRecord`: what an import makes of a KV record. -/
def normalizeCredentialRecord (value : Json) (legacyPolicyId : Option String) : ProxyCredential where
  copilotPublicIdentity :=
  none
  name := (value.get? "name").map storedCredentialName
  enabled := notDisabled (value.get? "enabled")
  secretSha256 := ((textField value "secretSha256").map platform.toLowerCase).getD ""
  policyId := (textField value "policyId").getD (legacyPolicyId.getD "")
  policyGeneration := (textField value "policyGeneration").getD ((textField value "generation").getD "legacy")
  principalId := textField value "principalId"
  expiresAt := textField value "expiresAt"
  serviceTiers := match value.get? "serviceTiers" with
    | some (.arr items) => some (items.filterMap Json.str?)
    | _ => none

/-! ## 6. Normal forms again -/

variable {platform}

theorem normalPrincipalId_idem {value : Principal} (hne : normalPrincipalId platform value ≠ "") :
    normalPrincipalId platform ⟨value.principalType, normalPrincipalId platform value⟩ =
      normalPrincipalId platform value := by
  by_cases huser : value.principalType = "user"
  · cases hmail : normalizeEmail platform.toLowerCase (platform.toLowerCase (trim value.principalId)) with
    | none =>
      unfold normalPrincipalId at hne
      rw [if_pos huser, hmail] at hne
      exact absurd rfl hne
    | some email =>
      have hid : normalPrincipalId platform value = email := by
        unfold normalPrincipalId
        rw [if_pos huser, hmail]
        rfl
      have hagain := Usage.normalizeEmail_idem platform.toCaseMapping hmail
      have hlower : platform.toLowerCase (trim email) = email := by
        unfold normalizeEmail at hagain
        dsimp only at hagain
        split at hagain
        · exact Option.some.inj hagain
        · cases hagain
      rw [hid]
      unfold normalPrincipalId
      rw [if_pos huser, hlower, hagain]
      rfl
  · have hid : normalPrincipalId platform value = platform.toLowerCase (trim value.principalId) :=
      if_neg huser
    rw [hid]
    unfold normalPrincipalId
    rw [if_neg huser, platform.trimmed, platform.idempotent]

/-- **A normalized principal is normalized to itself.** -/
theorem normalizePrincipal_idem {value principal : Principal}
    (h : normalizePrincipal platform value = .ok principal) :
    normalizePrincipal platform principal = .ok principal := by
  unfold normalizePrincipal at h
  simp only [bind_ok, require_ok, pure_ok] at h
  obtain ⟨_, hcheck, rfl⟩ := h
  have hne : normalPrincipalId platform value ≠ "" := by
    intro e
    rw [e] at hcheck
    simp at hcheck
  unfold normalizePrincipal
  dsimp only
  rw [normalPrincipalId_idem hne, hcheck]
  rfl

/-- A binding of a normalized principal is stored under it. -/
theorem normalizeBinding_principal {value binding : PolicyBinding} {raw : Principal}
    (hraw : normalizePrincipal platform raw = .ok value.toPrincipal)
    (h : normalizeBinding platform value = .ok binding) : binding.toPrincipal = value.toPrincipal := by
  unfold normalizeBinding at h
  simp only [bind_ok, require_ok, pure_ok] at h
  obtain ⟨principal, hprincipal, _, _, rfl⟩ := h
  rw [normalizePrincipal_idem hraw] at hprincipal
  exact (Except.ok.inj hprincipal).symm

end Normal

/-! ## 7. Tables -/

/-- The marks of `policy_binding_meta`: a kind of record whose import from KV is closed. -/
inductive Mark
  | bindings
  | users
  | policies
  | credentials
  | connections
  deriving DecidableEq

/-- A row of the table of bindings. -/
structure BindingRow where
  principalKey : String
  bindingKey : String
  binding : PolicyBinding

def BindingRow.key (row : BindingRow) : String × String := (row.principalKey, row.bindingKey)

/-- The tables of the authority. -/
structure Authority where
  principals : List String
  bindings : Table BindingRow.key
  users : Table AccessControlUser.email
  policies : Table AccessPolicyEntry.policyId
  credentials : Table ProxyCredentialEntry.credentialId
  connections : Table ProviderConnection.providerId
  marks : List Mark

def Authority.empty : Authority := ⟨[], Table.empty, Table.empty, Table.empty, Table.empty, Table.empty, []⟩

namespace Authority

variable (s : Authority)

def hasMeta (mark : Mark) : Bool := s.marks.contains mark

def hasPrincipal (key : String) : Bool := s.principals.contains key

def getUser (platform : Platform) (email : String) : Option AccessControlUser :=
  (normalizeEmail platform.toLowerCase email).bind s.users.find?

def getPolicy (id : String) : Option AccessPolicyEntry := s.policies.find? id

def getCredential (id : String) : Option ProxyCredentialEntry := s.credentials.find? id

def getConnection (id : String) : Option ProviderConnection := s.connections.find? id

/-- The rows of a principal in `policy_binding_entries`. -/
def bindingsOf (key : String) : List BindingRow := s.bindings.rows.filter fun row => row.principalKey = key

end Authority

end ClawRouter.Access
