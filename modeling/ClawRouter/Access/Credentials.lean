/-
  Subject:   The one function that writes credentials (`mutateCredential` of
             src/worker/authority.ts, `nextCredential` of src/worker/credential-mutation.ts).

  An administrator or an owner creates, puts, rotates, renames or revokes a key. Whether that is
  allowed is decided on the tables as they are at the write. A personal key that would be the
  hundred and first of its owner takes the place of revoked ones, whose rows are deleted.

  * `mutateCredential_run`, `mutateCredential_cases`: everything the function can do.
-/
import ClawRouter.Access.Tables

namespace ClawRouter.Access

open Commands Commands.Command Keyed Js
open Usage (normalizeEmail trim)

/-! ## 1. Requests -/

/-- How an actor is signed in. -/
inductive ActorAuth
  | cloudflareAccess
  | localAccount
  | adminToken
  deriving DecidableEq

/-- The part of a verified session that a mutation carries. -/
structure Actor where
  auth : ActorAuth
  email : String
  role : UserRole
  deriving DecidableEq

/-- The `credential` of a create or a put: what is missing and what is null are told apart. -/
structure CredentialInput where
  copilotPublicIdentity : Option Json
  name : Option (Option String)
  enabled : Bool
  secretSha256 : String
  policyId : String
  principalId : Option String
  expiresAt : Option Json
  serviceTiers : Option (Option (List String))

/-- What is asked of a key. -/
inductive CredentialOperation
  | create (credential : CredentialInput)
  | put (credential : CredentialInput)
  | rotate (secretSha256 : String)
  | rename (name : Option String)
  | revoke

/-- `operation === "create" || operation === "put"`, with the credential. -/
def CredentialOperation.input : CredentialOperation → Option CredentialInput
  | .create credential => some credential
  | .put credential => some credential
  | _ => none

/-- `CredentialMutation`; `copilotPublicIdentity` is missing, null or a value. -/
structure CredentialMutation where
  credentialId : String
  scope : CredentialScope
  actor : Actor
  operation : CredentialOperation
  copilotPublicIdentity : Option (Option Json)

/-- Why a mutation of a key is refused. -/
inductive CredentialRefusal
  | exists_
  | missing
  | ownedElsewhere
  | limitReached
  | policyNotHeld
  | unknownPolicy
  | inactive
  | actorDisabled
  | adminRequired
  deriving DecidableEq

/-- `CredentialMutationResult`; `invalid` is a throw here. -/
inductive CredentialMutationResult
  | refused (outcome : CredentialRefusal)
  | updated (entry : ProxyCredentialEntry) (policy : Option AccessPolicyEntry)
      (principalEnabled : Bool)

def selfServiceCredentialLimit : Nat := 10

def selfServiceCredentialRetentionLimit : Nat := 100

/-! ## 2. The attestation of an integration -/

def copilotDenied : HttpError :=
  ⟨403, "copilot_public_identity_unavailable", "Current Copilot integration authority unavailable"⟩

def copilotFields : List String :=
  ["integrationId", "editorVersion", "editorPluginVersion", "userAgent", "initiator"]

/-- `/^[\x20-\x7e]{1,512}$/`, without white space at the ends. -/
def isCopilotText (text : String) : Bool :=
  1 ≤ text.length && text.length ≤ 512 &&
    text.toList.all (fun c => 0x20 ≤ c.toNat && c.toNat ≤ 0x7e) && trim text == text

/-- `/^[A-Za-z0-9._-]+$/`, as far as `isCopilotText` does not say it. -/
def isIntegrationId (text : String) : Bool :=
  text.toList.all fun c => c.isAlphanum || c = '.' || c = '_' || c = '-'

def CopilotPublicIdentityProfile.valid (p : CopilotPublicIdentityProfile) : Bool :=
  [p.integrationId, p.editorVersion, p.editorPluginVersion, p.userAgent].all isCopilotText &&
    isIntegrationId p.integrationId && ["user", "agent"].contains p.initiator

def normalizeCopilotPublicIdentity : Json → Answer CopilotPublicIdentityProfile
  | .obj members => do
    Fallible.require (members.length = copilotFields.length &&
      members.all fun member => copilotFields.contains member.1) copilotDenied
    let text := fun name => Fallible.demand (textField (.obj members) name) copilotDenied
    let profile : CopilotPublicIdentityProfile :=
      ⟨← text "integrationId", ← text "editorVersion", ← text "editorPluginVersion",
        ← text "userAgent", ← text "initiator"⟩
    Fallible.require profile.valid copilotDenied
    return profile
  | _ => .error copilotDenied

/-- `/^[a-f0-9]{8}(?:-[a-f0-9]{4}){3}-[a-f0-9]{12}$/`. -/
def isRevision (text : String) : Bool :=
  match text.toList.splitOn '-' with
  | [a, b, c, d, e] =>
    isHex 8 (String.ofList a) && [b, c, d].all (fun part => isHex 4 (String.ofList part)) &&
      isHex 12 (String.ofList e)
  | _ => false

def readCopilotPublicIdentity (value : Option CopilotPublicIdentityAttestation) :
    Option CopilotPublicIdentityAttestation :=
  value.filter fun attestation => isRevision attestation.revision && attestation.profile.valid

/-! ## 3. Service tiers -/

def defaultServiceTiers : List String := ["default", "flex", "priority"]

def modelProvider (model : String) : String := String.ofList (model.toList.takeWhile (· ≠ '/'))

/-- `!policy.providers?.length || policy.providers.includes(model.split("/")[0])`. -/
def AccessPolicy.servesModel (policy : AccessPolicy) (model : String) : Bool :=
  policy.providers.isEmpty || policy.providers.contains (modelProvider model)

/-- `allowedServiceTiers`, of a model and without a credential. -/
def allowedServiceTiers (policy : AccessPolicy) (model : String) : List String :=
  match policy.serviceTiers with
  | none => defaultServiceTiers
  | some tiers => (tiers.models.lookup model).getD tiers.allowed

def grantedServiceTiers (policy : AccessPolicy) : List String :=
  match policy.models with
  | some models =>
    ((models.filter policy.servesModel).flatMap (allowedServiceTiers policy)).eraseDups
  | none =>
    let models := (policy.serviceTiers.map (·.models)).getD []
    (((policy.serviceTiers.map (·.allowed)).getD defaultServiceTiers) ++
      (models.filter fun entry => policy.servesModel entry.1).flatMap (·.2)).eraseDups

variable {request : CredentialMutation}

section Mutation

variable (platform : Platform)

/-! ## 4. The record -/

def attestationNeedsAdmin : HttpError :=
  ⟨403, "access_admin_required",
    "Copilot integration attestation requires administrator credential mutation"⟩

/-- The digest of a create or a put: an administrator may leave that of the key there is. -/
def nextSecret (scope : CredentialScope) (input : CredentialInput)
    (existing : Option ProxyCredential) : Answer String :=
  if input.secretSha256 ≠ "" then .ok input.secretSha256
  else match scope, existing with
    | .admin, some credential => .ok credential.secretSha256
    | _, _ => .error (invalidCredential "secretSha256 is required for a new credential")

def nextExpiry (scope : CredentialScope) (input : CredentialInput)
    (existing : Option ProxyCredential) : Answer (Option String) :=
  match scope, existing, input.expiresAt with
  | .admin, some credential, none => .ok credential.expiresAt
  | _, _, value => some <$> platform.credentialExpiry value scope

def nextName (input : CredentialInput) (existing : Option ProxyCredential) :
    Answer (Option (Option String)) :=
  match input.name with
  | some name => some <$> normalizeCredentialName name
  | none => .ok (existing.bind (·.name))

def nextServiceTiers (scope : CredentialScope) (input : CredentialInput)
    (existing : Option ProxyCredential) : Option (List String) :=
  match scope, existing, input.serviceTiers with
  | .admin, some credential, none => credential.serviceTiers
  | _, _, value => value.getD none

/-- The attestation of a create or a put, for a credential that is enabled: a new one, or the one
    there is where nothing the attestation vouches for changes. -/
def nextAttestation (request : CredentialMutation) (existing : Option ProxyCredential)
    (credential : ProxyCredential) (revision : String) :
    Answer (Option CopilotPublicIdentityAttestation) :=
  if !credential.enabled then .ok none
  else match request.copilotPublicIdentity, existing with
    | some (some value), _ => do
      return some ⟨revision, ← normalizeCopilotPublicIdentity value⟩
    | some none, _ => .ok none
    | none, none => .ok none
    | none, some previous =>
      if previous.enabled && previous.secretSha256 = credential.secretSha256 &&
          previous.principalId = credential.principalId && previous.policyId = credential.policyId &&
          previous.policyGeneration = credential.policyGeneration then
        .ok (readCopilotPublicIdentity previous.copilotPublicIdentity)
      else .ok none

def nextPutCredential (request : CredentialMutation) (input : CredentialInput)
    (existing : Option ProxyCredential) (policy : AccessPolicy) (principalId : Option String)
    (revision : String) : Answer ProxyCredential := do
  Fallible.require input.copilotPublicIdentity.isNone attestationNeedsAdmin
  let secretSha256 ← nextSecret request.scope input existing
  let expiresAt ← nextExpiry platform request.scope input existing
  let name ← nextName input existing
  let serviceTiers := nextServiceTiers request.scope input existing
  Fallible.require (request.scope = .admin ||
    (serviceTiers.getD []).all fun tier => (grantedServiceTiers policy).contains tier)
    (invalidCredential "credential service tiers may only narrow policy access")
  let credential : ProxyCredential :=
    { copilotPublicIdentity := none
      name
      enabled := request.scope = .personal || input.enabled
      secretSha256
      policyId := input.policyId
      policyGeneration := policy.generation
      principalId := if request.scope = .personal then principalId else input.principalId
      expiresAt
      serviceTiers }
  let attestation ← nextAttestation request existing credential revision
  return { credential with copilotPublicIdentity := attestation }

/-- `nextCredential` of a rotation, a renaming or a revocation. -/
def nextOfExisting (request : CredentialMutation) (existing : ProxyCredential) : Answer ProxyCredential := do
  Fallible.require request.copilotPublicIdentity.isNone attestationNeedsAdmin
  match request.operation with
  | .rename name => do
    return { existing with name := some (← normalizeCredentialName name) }
  | .rotate secretSha256 => do
    let expiresAt ← platform.credentialExpiry none request.scope
    return { existing with
      copilotPublicIdentity := none, secretSha256, expiresAt := some expiresAt }
  | _ => return { existing with copilotPublicIdentity := none, enabled := false }

/-! ## 5. The checks -/

/-- `normalizeEmail(existing.credential.principalId ?? "")`. -/
def ownerOf (credential : ProxyCredential) : Option String :=
  normalizeEmail platform.toLowerCase (credential.principalId.getD "")

/-- `!credential.principalId || getUser(credential.principalId)?.record.enabled !== false`. -/
def principalEnabled (s : Authority) (principalId : Option String) : Bool :=
  match principalId with
  | none => true
  | some id => id = "" || ((s.getUser platform id).bind (·.record.enabled)) ≠ some false

def holdsPolicy (s : Authority) (user : Option AccessControlUser)
    (policy : Option AccessPolicyEntry) : Answer Bool :=
  match user, policy with
  | some user, some entry =>
    if user.record.enabled = some false || !entry.policy.enabled then .ok false
    else do
      let principals : List Principal :=
        ⟨"user", user.email⟩ :: (user.record.groups.getD []).map fun group => ⟨"group", group⟩
      let bindings ← resolveBindings platform s principals
      return bindings.any fun binding =>
        binding.enabled = some true && binding.policyId = entry.policyId
  | _, _ => .ok false

/-- The actor is no longer who the session says. -/
def actorRefusal (request : CredentialMutation) (principalId : Option String)
    (user : Option AccessControlUser) : Option CredentialRefusal :=
  if request.actor.auth ≠ .adminToken &&
      (user.isNone || (user.bind (·.record.enabled)) = some false) then some .actorDisabled
  else if request.scope = .admin && (request.actor.role ≠ .admin ||
      request.actor.auth = .localAccount && (user.bind (·.record.role)) ≠ some .admin) then
    some .adminRequired
  else if request.scope = .personal && (principalId.isNone || request.actor.auth = .adminToken) then
    some .actorDisabled
  else if request.copilotPublicIdentity.isSome && request.scope ≠ .admin then some .adminRequired
  else none

/-- The key is there, or is not, or is another's. -/
def keyRefusal (request : CredentialMutation) (principalId : Option String)
    (existing : Option ProxyCredentialEntry) : Option CredentialRefusal :=
  match request.operation, existing with
  | .create _, some _ => some .exists_
  | .rotate _, none => some .missing
  | .rename _, none => some .missing
  | .revoke, none => some .missing
  | _, some entry =>
    if request.scope = .personal && ownerOf platform entry.credential ≠ principalId then
      some .ownedElsewhere
    else none
  | _, none => none

/-- A rotation needs a key, a policy and an owner that are all active. -/
def rotationRefused (s : Authority) (operation : CredentialOperation)
    (existing : Option ProxyCredentialEntry) (policy : Option AccessPolicyEntry) : Bool :=
  match operation, existing with
  | .rotate _, some entry =>
    !entry.credential.enabled || !(policy.any (·.policy.enabled)) ||
      (policy.map (·.policy.generation)) ≠ some entry.credential.policyGeneration ||
      !principalEnabled platform s entry.credential.principalId
  | _, _ => false

/-- The key or its policy is not active, or the policy is not the actor's. -/
def policyRefusal (s : Authority) (request : CredentialMutation) (user : Option AccessControlUser)
    (existing : Option ProxyCredentialEntry) (policy : Option AccessPolicyEntry) :
    Answer (Option CredentialRefusal) :=
  if rotationRefused platform s request.operation existing policy then .ok (some .inactive)
  else match request.operation, request.scope with
    | .revoke, _ => .ok none
    | .rename _, _ => .ok none
    | _, .personal => do
      let held ← holdsPolicy platform s user policy
      return if held then none else some .policyNotHeld
    | _, .admin => .ok (if policy.isNone then some .unknownPolicy else none)

/-- The policy of the record that will be written. -/
def policyIdOf (request : CredentialMutation) (existing : Option ProxyCredentialEntry) : String :=
  match request.operation.input with
  | some input => input.policyId
  | none => (existing.map (·.credential.policyId)).getD ""

/-! ## 6. Places -/

def listCredentials (s : Authority) : List ProxyCredentialEntry :=
  s.credentials.rows.mergeSort fun a b => a.credentialId ≤ b.credentialId

def deleteCredential (id : String) : Task Unit :=
  update fun s => { s with credentials := s.credentials.delete fun entry => entry.credentialId = id }

/-- The keys of the owner besides the one that is written. -/
def ownedBesides (s : Authority) (credentialId : String) (principalId : Option String) :
    List ProxyCredentialEntry :=
  (listCredentials s).filter fun candidate =>
    candidate.credentialId ≠ credentialId && ownerOf platform candidate.credential = principalId

/-- The rows to delete before a personal key is written; `none` if there is no place. -/
def pruned (s : Authority) (request : CredentialMutation) (principalId : Option String)
    (existing : Option ProxyCredentialEntry) : Option (List ProxyCredentialEntry) :=
  if request.scope = .personal && request.operation.input.isSome then
    let owned := ownedBesides platform s request.credentialId principalId
    if selfServiceCredentialLimit ≤ owned.countP (·.credential.enabled) then none
    else if existing.isNone && selfServiceCredentialRetentionLimit ≤ owned.length then
      let pruneCount := owned.length - selfServiceCredentialRetentionLimit + 1
      let revoked := (owned.filter fun candidate => !candidate.credential.enabled).mergeSort
        fun a b => platform.localeCompare a.credentialId b.credentialId ≠ .gt
      if revoked.length < pruneCount then none else some (revoked.take pruneCount)
    else some []
  else some []

/-! ## 7. The mutation -/

/-- `nextCredential`, called once the checks have passed. -/
def nextCredential (request : CredentialMutation) (existing : Option ProxyCredentialEntry)
    (policy : Option AccessPolicyEntry) (principalId : Option String) (revision : String) :
    Answer ProxyCredential :=
  match request.operation.input, policy, existing with
  | some input, some entry, _ =>
    nextPutCredential platform request input (existing.map (·.credential)) entry.policy principalId revision
  | none, _, some entry => nextOfExisting platform request entry.credential
  | _, _, _ => .error ⟨500, "authority_error", "authority request failed"⟩

def replaceRows (entry : ProxyCredentialEntry) (policy : Option AccessPolicyEntry)
    (rows : List ProxyCredentialEntry) : Task CredentialMutationResult := do
  rows.forM fun candidate => deleteCredential candidate.credentialId
  putCredential entry
  let enabled ← query (principalEnabled platform · entry.credential.principalId)
  return .updated entry policy enabled

/-- The writes of a mutation that passed every check. -/
def writeCredential (request : CredentialMutation) (principalId : Option String)
    (existing : Option ProxyCredentialEntry) (policy : Option AccessPolicyEntry)
    (revision : String) : Task CredentialMutationResult := do
  let credential ← lift (nextCredential platform request existing policy principalId revision)
  let places ← query (pruned platform · request principalId existing)
  match places with
  | none => pure (.refused .limitReached)
  | some rows => replaceRows platform ⟨request.credentialId, credential⟩ policy rows

def refusal (s : Authority) (request : CredentialMutation) : Answer (Option CredentialRefusal) :=
  let principalId := normalizeEmail platform.toLowerCase request.actor.email
  let user := principalId.bind (s.getUser platform)
  let existing := s.getCredential request.credentialId
  match actorRefusal request principalId user with
  | some outcome => .ok (some outcome)
  | none =>
    match keyRefusal platform request principalId existing with
    | some outcome => .ok (some outcome)
    | none =>
      policyRefusal platform s request user existing (s.getPolicy (policyIdOf request existing))

/-- `mutateCredential`; `revision` is what `crypto.randomUUID()` gives. -/
def mutateCredential (request : CredentialMutation) (revision : String) : Task CredentialMutationResult := do
  let principalId := normalizeEmail platform.toLowerCase request.actor.email
  let existing ← query (·.getCredential request.credentialId)
  let policy ← query (·.getPolicy (policyIdOf request existing))
  let checked ← query (refusal platform · request)
  let refused ← lift checked
  match refused with
  | some outcome => pure (.refused outcome)
  | none => writeCredential platform request principalId existing policy revision

/-! ## 8. Everything a mutation can do -/

/-- What a mutation that wrote a key has done. -/
structure Wrote (s : Authority) (request : CredentialMutation) (entry : ProxyCredentialEntry)
    (s' : Authority) : Prop where
  /-- The key of the request is there, as the answer shows it. -/
  id : entry.credentialId = request.credentialId
  row : s'.credentials.find? request.credentialId = some entry
  /-- Another key is as it was, or it was revoked and is gone. -/
  others : ∀ id, id ≠ request.credentialId →
    s'.credentials.find? id = s.credentials.find? id ∨
      s'.credentials.find? id = none ∧
        ∃ e, s.credentials.find? id = some e ∧ e.credential.enabled = false
  /-- Nothing else is written. -/
  rest : s' = { s with credentials := s'.credentials }
  /-- A revoked key is not enabled. -/
  revoked : request.operation = .revoke → entry.credential.enabled = false
  /-- Only a create or a put enables a key. -/
  enabled : request.operation.input = none → entry.credential.enabled = true →
    ∃ e, s.credentials.find? request.credentialId = some e ∧ e.credential.enabled = true

variable {platform}

/-- The deletion of some keys: the others stay, and nothing else is written. -/
def Deletes (ids : List String) (s s' : Authority) : Prop :=
  s' = { s with credentials := s'.credentials } ∧
    ∀ id, s'.credentials.find? id = s.credentials.find? id ∨ s'.credentials.find? id = none ∧ id ∈ ids

def named (rows : List ProxyCredentialEntry) (entry : ProxyCredentialEntry) : Bool :=
  (rows.map (·.credentialId)).contains entry.credentialId

theorem deletes_named (rows : List ProxyCredentialEntry) (s : Authority) :
    Deletes (rows.map (·.credentialId)) s
      { s with credentials := s.credentials.delete (named rows) } := by
  refine ⟨rfl, fun id => ?_⟩
  rw [Table.find?_delete]
  cases hrow : s.credentials.find? id with
  | none => exact .inl rfl
  | some entry =>
    have hkey : entry.credentialId = id := (Table.find?_eq_some.mp hrow).2
    by_cases hid : id ∈ rows.map (·.credentialId)
    · right
      rw [Option.filter_some_neg (by simpa [named, hkey] using hid)]
      exact ⟨rfl, hid⟩
    · left
      rw [Option.filter_some_pos (by simpa [named, hkey] using hid)]

theorem deleteRows_run (rows : List ProxyCredentialEntry) (s : Authority) :
    ((rows.forM fun candidate => deleteCredential candidate.credentialId) : Task PUnit) s =
      (.ok ⟨⟩, { s with credentials := s.credentials.delete (named rows) }) := by
  induction rows generalizing s with
  | nil =>
    have e : s.credentials.delete (named []) = s.credentials := Table.delete_eq_self fun _ _ => rfl
    rw [e]
    rfl
  | cons row rows ih =>
    refine (ih (deleteCredential row.credentialId s).2).trans ?_
    show (_, { s with credentials := (s.credentials.delete _).delete (named rows) }) = _
    rw [Table.delete_delete]
    have e : (fun entry => decide (entry.credentialId = row.credentialId) || named rows entry) =
        named (row :: rows) := by
      funext entry
      simp [named]
    rw [e]

theorem pruned_revoked {s : Authority} {principalId : Option String}
    {existing : Option ProxyCredentialEntry} {rows : List ProxyCredentialEntry}
    (h : pruned platform s request principalId existing = some rows) :
    ∀ e ∈ rows, s.credentials.find? e.credentialId = some e ∧ e.credential.enabled = false := by
  intro e he
  unfold pruned at h
  split at h
  · dsimp only at h
    split at h
    · cases h
    · split at h
      · split at h
        · cases h
        · cases h
          have hrevoked := List.mem_mergeSort.mp (List.mem_of_mem_take he)
          obtain ⟨howned, hdisabled⟩ := List.mem_filter.mp hrevoked
          have hlisted := List.mem_mergeSort.mp (List.mem_filter.mp howned).1
          exact ⟨Table.find?_eq_some.mpr ⟨hlisted, rfl⟩, by simpa using hdisabled⟩
      · cases h
        exact absurd he List.not_mem_nil
  · cases h
    exact absurd he List.not_mem_nil

theorem nextOfExisting_enabled {existing credential : ProxyCredential}
    (hinput : request.operation.input = none)
    (h : nextOfExisting platform request existing = .ok credential) :
    (request.operation = .revoke → credential.enabled = false) ∧
      (credential.enabled = true → existing.enabled = true) := by
  obtain ⟨_, _, h⟩ := Fallible.bind_ok.mp h
  cases hop : request.operation with
  | create input | put input =>
    rw [hop] at hinput
    cases hinput
  | rotate secretSha256 | rename name =>
    rw [hop] at h
    simp only [Fallible.bind_ok, Fallible.pure_ok] at h
    obtain ⟨_, _, rfl⟩ := h
    exact ⟨nofun, id⟩
  | revoke =>
    rw [hop] at h
    cases h
    exact ⟨fun _ => rfl, nofun⟩

theorem nextCredential_enabled {existing : Option ProxyCredentialEntry}
    {policy : Option AccessPolicyEntry} {principalId : Option String} {revision : String}
    {credential : ProxyCredential} (hinput : request.operation.input = none)
    (h : nextCredential platform request existing policy principalId revision = .ok credential) :
    (request.operation = .revoke → credential.enabled = false) ∧
      (credential.enabled = true → ∃ e, existing = some e ∧ e.credential.enabled = true) := by
  unfold nextCredential at h
  rw [hinput] at h
  cases existing with
  | none => cases h
  | some entry =>
    obtain ⟨hrevoke, henabled⟩ := nextOfExisting_enabled hinput h
    exact ⟨hrevoke, fun hc => ⟨entry, rfl, henabled hc⟩⟩

theorem wrote_of_deletes {s s₁ : Authority} {credential : ProxyCredential} {rows : List ProxyCredentialEntry}
    (hdeletes : Deletes (rows.map (·.credentialId)) s s₁)
    (hrows : ∀ e ∈ rows, s.credentials.find? e.credentialId = some e ∧ e.credential.enabled = false)
    (hrevoked : request.operation = .revoke → credential.enabled = false)
    (henabled : request.operation.input = none → credential.enabled = true →
      ∃ e, s.credentials.find? request.credentialId = some e ∧ e.credential.enabled = true) :
    Wrote s request ⟨request.credentialId, credential⟩
      { s₁ with credentials := s₁.credentials.upsert ⟨request.credentialId, credential⟩ } where
  id := rfl
  row := by
    rw [Table.find?_upsert, if_pos rfl]
  others := by
    intro id hne
    rw [Table.find?_upsert, if_neg fun e => hne e.symm]
    rcases hdeletes.2 id with e | ⟨e, hid⟩
    · exact .inl e
    · obtain ⟨row, hrow, rfl⟩ := List.mem_map.mp hid
      exact .inr ⟨e, row, hrows row hrow⟩
  rest := by
    rw [hdeletes.1]
  revoked := hrevoked
  enabled := henabled

theorem replaceRows_run (entry : ProxyCredentialEntry) (policy : Option AccessPolicyEntry)
    (rows : List ProxyCredentialEntry) (s : Authority) : ∃ enabled, replaceRows platform entry policy rows s =
      (.ok (.updated entry policy enabled),
        { s with credentials := (s.credentials.delete (named rows)).upsert entry }) := by
  refine ⟨principalEnabled platform { s with credentials := (s.credentials.delete (named rows)).upsert entry }
    entry.credential.principalId, ?_⟩
  unfold replaceRows
  rw [bind_run (deleteRows_run rows s)]
  rfl

theorem error_not_updated (e : HttpError) (entry : ProxyCredentialEntry)
    (policy : Option AccessPolicyEntry) (enabled : Bool) :
    (.error e : Answer CredentialMutationResult) ≠ .ok (.updated entry policy enabled) := by
  intro h
  cases h

theorem refused_not_updated (outcome : CredentialRefusal) (entry : ProxyCredentialEntry)
    (policy : Option AccessPolicyEntry) (enabled : Bool) :
    (.ok (.refused outcome) : Answer CredentialMutationResult) ≠ .ok (.updated entry policy enabled) := by
  intro h
  cases h

/-- What a mutation that wrote has computed on its way. -/
structure Passed (platform : Platform) (s : Authority) (request : CredentialMutation)
    (revision : String) (credential : ProxyCredential) (rows : List ProxyCredentialEntry) :
    Prop where
  checked : refusal platform s request = .ok none
  next : nextCredential platform request (s.getCredential request.credentialId)
    (s.getPolicy (policyIdOf request (s.getCredential request.credentialId)))
    (normalizeEmail platform.toLowerCase request.actor.email) revision = .ok credential
  places : pruned platform s request (normalizeEmail platform.toLowerCase request.actor.email)
    (s.getCredential request.credentialId) = some rows

/-- **A mutation deletes the rows that make place and writes its key, or it writes nothing.** -/
theorem mutateCredential_run {revision : String} {s s' : Authority} {answer : Answer CredentialMutationResult}
    (h : mutateCredential platform request revision s = (answer, s')) :
    (s' = s ∧ ∀ entry policy enabled, answer ≠ .ok (.updated entry policy enabled)) ∨
      ∃ credential rows policy enabled, Passed platform s request revision credential rows ∧
        answer = .ok (.updated ⟨request.credentialId, credential⟩ policy enabled) ∧ s' = { s with
          credentials := (s.credentials.delete (named rows)).upsert ⟨request.credentialId, credential⟩ } := by
  unfold mutateCredential at h
  rw [query_bind, query_bind, query_bind] at h
  cases hrefusal : refusal platform s request with
  | error e =>
    rw [hrefusal, lift_error_bind] at h
    obtain ⟨rfl, rfl⟩ := Prod.mk.inj h
    exact .inl ⟨rfl, error_not_updated _⟩
  | ok refused =>
    rw [hrefusal, lift_ok_bind] at h
    cases refused with
    | some outcome =>
      obtain ⟨rfl, rfl⟩ := Prod.mk.inj h
      exact .inl ⟨rfl, refused_not_updated outcome⟩
    | none =>
      dsimp only at h
      unfold writeCredential at h
      cases hnext : nextCredential platform request (s.getCredential request.credentialId)
          (s.getPolicy (policyIdOf request (s.getCredential request.credentialId)))
          (normalizeEmail platform.toLowerCase request.actor.email) revision with
      | error e =>
        rw [hnext, lift_error_bind] at h
        obtain ⟨rfl, rfl⟩ := Prod.mk.inj h
        exact .inl ⟨rfl, error_not_updated _⟩
      | ok credential =>
        rw [hnext, lift_ok_bind, query_bind] at h
        cases hplaces : pruned platform s request (normalizeEmail platform.toLowerCase request.actor.email)
            (s.getCredential request.credentialId) with
        | none =>
          rw [hplaces] at h
          obtain ⟨rfl, rfl⟩ := Prod.mk.inj h
          exact .inl ⟨rfl, refused_not_updated _⟩
        | some rows =>
          rw [hplaces] at h
          obtain ⟨enabled, hrun⟩ := @replaceRows_run platform ⟨request.credentialId, credential⟩
              (s.getPolicy (policyIdOf request (s.getCredential request.credentialId))) rows s
          obtain ⟨rfl, rfl⟩ := Prod.mk.inj (hrun.symm.trans h)
          exact .inr ⟨credential, rows, _, enabled, ⟨hrefusal, hnext, hplaces⟩, rfl, rfl⟩

/-- The same, key by key. -/
theorem mutateCredential_cases {revision : String} {s s' : Authority}
    {answer : Answer CredentialMutationResult}
    (h : mutateCredential platform request revision s = (answer, s')) :
    (s' = s ∧ ∀ entry policy enabled, answer ≠ .ok (.updated entry policy enabled)) ∨
      ∃ entry policy enabled, answer = .ok (.updated entry policy enabled) ∧ Wrote s request entry s' := by
  rcases mutateCredential_run h with hnothing | ⟨credential, rows, policy, enabled, hpassed, e, rfl⟩
  · exact .inl hnothing
  · refine .inr ⟨_, policy, enabled, e, wrote_of_deletes (deletes_named rows s)
      (pruned_revoked hpassed.places) ?_ ?_⟩
    · intro hop
      exact (nextCredential_enabled (by rw [hop]; rfl) hpassed.next).1 hop
    · intro hinput henabled
      exact (nextCredential_enabled hinput hpassed.next).2 henabled

end Mutation

end ClawRouter.Access
