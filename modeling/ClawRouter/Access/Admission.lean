/-
  Subject:   The admission of a request in the authority (`resolveAdmission` of
             src/worker/authority-admission.ts).

  An admission reads a credential, its policy, its owner and the connections. What is missing is
  looked up in KV first, as long as the import of that kind is open, and written by the guarded
  seeds. Every KV read is an await, at which other requests run; between two awaits an admission
  runs in one piece.

  * `resume_dormant`: a piece carries no enabled credential that the authority does not have.

  The pools and the selection of a grant only read what is modelled here, and are left out but for
  the last reading of the credential (`finishAdmissionSelection`).
-/
import ClawRouter.Access.Tables

namespace ClawRouter.Access

open Commands Commands.Command Keyed Js
open Usage (normalizeEmail)

/-! ## 1. Requests and answers -/

/-- `AdmissionRequest`. `search` stands for the controls that read only what the authority has,
    `cover` for the one of them that needs an owner. -/
structure AdmissionRequest where
  search : Bool
  cover : Bool
  selection : Bool
  credentialId : String
  secretSha256 : Option String
  providers : List String
  allConnections : Bool

/-- What an admission reads of the tables. -/
structure AdmissionResult where
  credential : Option ProxyCredentialEntry
  policy : Option AccessPolicyEntry
  owner : Option AccessControlUser
  connections : List ProviderConnection
  policyUnavailable : Bool
  ownerUnavailable : Bool
  connectionsUnavailable : Bool

/-- `{ credential, policy: null, owner: null, connections: [], pools: {} }`. -/
def AdmissionResult.ofCredential (credential : Option ProxyCredentialEntry) : AdmissionResult :=
  ⟨credential, none, none, [], false, false, false⟩

/-- The KV read an admission waits for, and what it has read before. -/
inductive AdmissionWait
  | credential
  | policy (credential : ProxyCredentialEntry)
  | owner (credential : ProxyCredentialEntry) (policy : AccessPolicyEntry) (email : String)
  | connections (result : AdmissionResult) (ids missing : List String)
  | selecting (result : AdmissionResult)

/-- What a piece of an admission ends with. -/
inductive AdmissionProgress
  | waits (wait : AdmissionWait)
  | answers (result : AdmissionResult)

/-- What an await ends with: a value of KV, the connections of KV, or a read that failed; or the
    hashes of the selection, which may then read the records again. -/
inductive AdmissionReply
  | value (value : Option Json)
  | connections (items : List ProviderConnectionInput)
  | failed (error : HttpError)
  | selected (reread : Bool)

def truthy : Json → Bool
  | .null => false
  | .bool b => b
  | .int n => n ≠ 0
  | .str s => s ≠ ""
  | _ => true

def authorityFailed : HttpError := ⟨500, "authority_error", "authority request failed"⟩

def musicCoverUnavailable : HttpError :=
  ⟨503, "minimax_music_cover_unavailable", "Music cover control or original authority is unavailable"⟩

section Pieces

variable (platform : Platform) (request : AdmissionRequest) (now : Int)

/-! ## 2. The pieces -/

def credentialExpired (credential : ProxyCredential) : Bool :=
  match credential.expiresAt with
  | none => false
  | some text =>
    match platform.parseDate text with
    | none => true
    | some at_ => at_ ≤ now

/-- The two lists of `resolveConnections`: the connections there are and the ids without one. -/
def resolveConnections (s : Authority) (ids : List String) : List ProviderConnection × List String :=
  (ids.eraseDups.filterMap s.getConnection, ids.eraseDups.filter fun id => (s.getConnection id).isNone)

def finishAdmission (result : AdmissionResult) : Task AdmissionProgress :=
  pure (if request.selection then .waits (.selecting result) else .answers result)

def connectionIds (policy : AccessPolicyEntry) : List String :=
  (request.providers.filter fun id => request.allConnections || policy.policy.providers.isEmpty ||
    policy.policy.providers.contains id).eraseDups

/-- The reading of the connections; a control that misses one gets none. -/
def afterOwner (result : AdmissionResult) (policy : AccessPolicyEntry) : Task AdmissionProgress := do
  let ids := connectionIds request policy
  let found ← query (resolveConnections · ids)
  let closed ← query (·.hasMeta .connections)
  if request.search && !found.2.isEmpty then
    finishAdmission request { result with connectionsUnavailable := true }
  else if !request.search && !closed && (request.allConnections || !found.2.isEmpty) then
    pure (.waits (.connections result ids found.2))
  else finishAdmission request { result with connections := found.1 }

def ownerKnown (result : AdmissionResult) (policy : AccessPolicyEntry)
    (owner : Option AccessControlUser) : Task AdmissionProgress :=
  if request.cover && owner.isNone then fail musicCoverUnavailable
  else if owner.bind (·.record.enabled) = some false then
    pure (.answers { result with owner := owner })
  else afterOwner request { result with owner := owner } policy

/-- The address of the owner, where the credential has one. -/
def ownerEmail (credential : ProxyCredential) : Option String :=
  (credential.principalId.filter (· ≠ "")).bind (normalizeEmail platform.toLowerCase)

def afterPolicy (entry : ProxyCredentialEntry) (policy : Option AccessPolicyEntry) : Task AdmissionProgress :=
  match policy with
  | none => pure (.answers (.ofCredential (some entry)))
  | some policy =>
    let result := { AdmissionResult.ofCredential (some entry) with policy := some policy }
    if !entry.credential.enabled || credentialExpired platform now entry.credential ||
        !policy.policy.enabled || entry.credential.policyGeneration ≠ policy.policy.generation then
      pure (.answers result)
    else match ownerEmail platform entry.credential with
      | none => afterOwner request result policy
      | some email => do
        let owner ← query (·.getUser platform email)
        let closed ← query (·.hasMeta .users)
        if !request.search && owner.isNone && !closed then
          pure (.waits (.owner entry policy email))
        else ownerKnown request result policy owner

/-- A secret was sent and it is not the one of the credential. -/
def wrongSecret (entry : ProxyCredentialEntry) : Bool :=
  request.secretSha256.any fun secret =>
    platform.toLowerCase secret ≠ platform.toLowerCase entry.credential.secretSha256

def afterCredential (credential : Option ProxyCredentialEntry) : Task AdmissionProgress :=
  match credential with
  | none => pure (.answers (.ofCredential none))
  | some entry =>
    if wrongSecret platform request entry then pure (.answers (.ofCredential (some entry)))
    else do
      let policy ← query (·.getPolicy entry.credential.policyId)
      let closed ← query (·.hasMeta .policies)
      if !request.search && policy.isNone && !closed then pure (.waits (.policy entry))
      else afterPolicy platform request now entry policy

def admissionStart : Task AdmissionProgress := do
  let credential ← query (·.getCredential request.credentialId)
  let closed ← query (·.hasMeta .credentials)
  if !request.search && credential.isNone && !closed then pure (.waits .credential)
  else afterCredential platform request now credential

def seedCredential (value : Option Json) : Task Unit :=
  match value.filter truthy with
  | none => pure ()
  | some value => initializeCredentials [⟨request.credentialId,
      normalizeCredentialRecord platform value (some request.credentialId)⟩]

def admissionCredential (value : Option Json) : Task AdmissionProgress := do
  seedCredential platform request value
  let credential ← query (·.getCredential request.credentialId)
  afterCredential platform request now credential

def seedPolicy (policyId : String) (value : Option Json) : Task Unit :=
  match value.filter truthy with
  | none => pure ()
  | some value => do
    let policy ← lift (platform.normalizePolicyRecord value platform.contentRetentionDefault)
    initializePolicies [⟨policyId, policy⟩]

/-- After the KV read of the policy; a throw answers that it is not available. -/
def admissionPolicy (entry : ProxyCredentialEntry) (value : Option Json) : Task AdmissionProgress := do
  let available ← attempt (do seedPolicy platform entry.credential.policyId value; return true) fun _ => pure false
  let policy ← query (·.getPolicy entry.credential.policyId)
  if available then afterPolicy platform request now entry policy
  else pure (.answers { AdmissionResult.ofCredential (some entry) with policyUnavailable := true })

/-- What a KV record of a user says; what is missing is missing. -/
def userRecordOf (value : Json) : AccessUserRecord where
  role :=
  match textField value "role" with
    | some "admin" => some .admin
    | some _ => some .user
    | none => none
  tenantId := textField value "tenantId"
  enabled := match value.get? "enabled" with
    | some (.bool enabled) => some enabled
    | _ => none
  groups := match value.get? "groups" with
    | some (.arr items) => some (items.filterMap Json.str?)
    | _ => none
  contentRetentionDisabled := match value.get? "contentRetentionDisabled" with
    | some (.bool disabled) => some disabled
    | _ => none
  assignmentState := value.get? "assignmentState"
  budgetOverrides := value.get? "budgetOverrides"

def seedOwner (email : String) (value : Option Json) : Task Unit :=
  match value.filter truthy with
  | none => pure ()
  | some value => initializeUsers platform [⟨email, userRecordOf value⟩]

def admissionOwner (entry : ProxyCredentialEntry) (policy : AccessPolicyEntry) (email : String)
    (value : Option Json) : Task AdmissionProgress := do
  let result := { AdmissionResult.ofCredential (some entry) with policy := some policy }
  let available ← attempt (do seedOwner platform email value; return true) fun _ => pure false
  let owner ← query (·.getUser platform email)
  if available then ownerKnown request result policy owner
  else pure (.answers { result with ownerUnavailable := true })

/-- `putMeta("connections_global_initialized")`, where every connection was asked for. -/
def closeConnections : Task Unit := if request.allConnections then putMeta .connections else pure ()

def admissionConnections (result : AdmissionResult) (ids : List String)
    (items : List ProviderConnectionInput) : Task AdmissionProgress := do
  let available ← attempt (do initializeConnections items; closeConnections request; return true) fun _ => pure false
  let found ← query (resolveConnections · ids)
  finishAdmission request (if available then { result with connections := found.1 }
    else { result with connectionsUnavailable := true })

/-- The records `finishAdmissionSelection` reads again. -/
def rereadRecords (s : Authority) (result : AdmissionResult) : AdmissionResult :=
  let credential := s.getCredential request.credentialId
  { result with
    credential := credential
    policy := credential.bind fun entry => s.getPolicy entry.credential.policyId
    owner := (credential.bind (ownerEmail platform ·.credential)).bind (s.getUser platform) }

def admissionSelected (result : AdmissionResult) (reread : Bool) : Task AdmissionProgress := do
  let fresh ← query (rereadRecords platform request · result)
  return .answers (if reread then fresh else result)

def resumeAdmission : AdmissionWait → AdmissionReply → Task AdmissionProgress
  | .credential, .value value => admissionCredential platform request now value
  | .policy entry, .value value => admissionPolicy platform request now entry value
  | .policy entry, .failed _ =>
    pure (.answers { AdmissionResult.ofCredential (some entry) with policyUnavailable := true })
  | .owner entry policy email, .value value => admissionOwner platform request entry policy email value
  | .owner entry policy _, .failed _ =>
    pure (.answers { AdmissionResult.ofCredential (some entry) with
      policy := some policy, ownerUnavailable := true })
  | .connections result ids _, .connections items => admissionConnections request result ids items
  | .connections result _ _, .failed _ =>
    finishAdmission request { result with connectionsUnavailable := true }
  | .selecting result, .selected reread => admissionSelected platform request result reread
  | _, .failed error => fail error
  | _, _ => fail authorityFailed

end Pieces

section Facts

variable {platform : Platform} {request : AdmissionRequest} {now : Int}

/-! ## 3. What a piece changes -/

theorem shields_finishAdmission (result : AdmissionResult) :
    Keeps Shields (finishAdmission request result) := keeps_pure shields_refl _

theorem shields_afterOwner (result : AdmissionResult) (policy : AccessPolicyEntry) :
    Keeps Shields (afterOwner request result policy) := by
  intro s
  refine keepsAt_query_bind (keepsAt_query_bind ?_)
  split
  · exact shields_finishAdmission _ s
  · split
    · exact shields_refl s
    · exact shields_finishAdmission _ s

theorem shields_ownerKnown (result : AdmissionResult) (policy : AccessPolicyEntry)
    (owner : Option AccessControlUser) : Keeps Shields (ownerKnown request result policy owner) := by
  intro s
  unfold ownerKnown
  split
  · exact shields_refl s
  · split
    · exact shields_refl s
    · exact shields_afterOwner _ policy s

theorem shields_afterPolicy (entry : ProxyCredentialEntry) (policy : Option AccessPolicyEntry) :
    Keeps Shields (afterPolicy platform request now entry policy) := by
  intro s
  cases policy with
  | none => exact shields_refl s
  | some policy =>
    unfold afterPolicy
    dsimp only
    split
    · exact shields_refl s
    · cases ownerEmail platform entry.credential with
      | none => exact shields_afterOwner _ policy s
      | some email =>
        refine keepsAt_query_bind (keepsAt_query_bind ?_)
        split
        · exact shields_refl s
        · exact shields_ownerKnown _ policy _ s

theorem shields_afterCredential (credential : Option ProxyCredentialEntry) :
    Keeps Shields (afterCredential platform request now credential) := by
  intro s
  cases credential with
  | none => exact shields_refl s
  | some entry =>
    unfold afterCredential
    dsimp only
    split
    · exact shields_refl s
    · refine keepsAt_query_bind (keepsAt_query_bind ?_)
      split
      · exact shields_refl s
      · exact shields_afterPolicy entry _ s

theorem shields_admissionStart : Keeps Shields (admissionStart platform request now) := by
  intro s
  refine keepsAt_query_bind (keepsAt_query_bind ?_)
  split
  · exact shields_refl s
  · exact shields_afterCredential _ s

theorem shields_seedCredential (value : Option Json) :
    Keeps Shields (seedCredential platform request value) := by
  unfold seedCredential
  split
  · exact keeps_pure shields_refl _
  · exact shields_initializeCredentials _

theorem shields_seedPolicy (policyId : String) (value : Option Json) :
    Keeps Shields (seedPolicy platform policyId value) := by
  unfold seedPolicy
  split
  · exact keeps_pure shields_refl _
  · exact fun s => keepsAt_lift_bind shields_refl fun policy _ => shields_initializePolicies _ s

theorem shields_seedOwner (email : String) (value : Option Json) :
    Keeps Shields (seedOwner platform email value) := by
  unfold seedOwner
  split
  · exact keeps_pure shields_refl _
  · exact shields_initializeUsers _

theorem shields_closeConnections : Keeps Shields (closeConnections request) := by
  unfold closeConnections
  split
  · exact shields_putMeta _
  · exact keeps_pure shields_refl _

theorem shields_tried {task : Task Unit} (h : Keeps Shields task) :
    Keeps Shields (attempt (do task; return true) fun _ => pure false) :=
  keeps_attempt (R := Shields) (fun _ _ _ => Shields.trans)
    (fun s => KeepsAt.bind (R := Shields) (fun _ _ _ => Shields.trans) (h s) fun _ s' _ => shields_refl s')
    fun _ => keeps_pure shields_refl _

theorem shields_resumeAdmission (wait : AdmissionWait) (reply : AdmissionReply) :
    Keeps Shields (resumeAdmission platform request now wait reply) := by
  have htrans : ∀ s s' s'', Shields s s' → Shields s' s'' → Shields s s'' := fun _ _ _ => Shields.trans
  intro s
  unfold resumeAdmission
  split
  · exact KeepsAt.bind htrans (shields_seedCredential _ s) fun _ s' _ =>
      keepsAt_query_bind (shields_afterCredential _ s')
  · refine KeepsAt.bind htrans (shields_tried (shields_seedPolicy _ _) s) fun _ s' _ => ?_
    refine keepsAt_query_bind ?_
    split
    · exact shields_afterPolicy _ _ s'
    · exact shields_refl s'
  · exact shields_refl s
  · refine KeepsAt.bind htrans (shields_tried (shields_seedOwner _ _) s) fun _ s' _ => ?_
    refine keepsAt_query_bind ?_
    split
    · exact shields_ownerKnown _ _ _ s'
    · exact shields_refl s'
  · exact shields_refl s
  · refine KeepsAt.bind htrans ?_ fun _ s' _ => ?_
    · refine keeps_attempt (R := Shields) htrans (fun s => ?_) (fun _ => keeps_pure shields_refl _) s
      refine KeepsAt.bind htrans (shields_initializeConnections _ s) fun _ s1 _ => ?_
      refine KeepsAt.bind htrans (shields_closeConnections s1) fun _ s2 _ => shields_refl s2
    · exact keepsAt_query_bind (shields_finishAdmission _ s')
  · exact shields_finishAdmission _ s
  · exact shields_refl s
  · exact shields_refl s
  · exact shields_refl s

/-! ## 4. What a piece carries -/

def AdmissionWait.carried : AdmissionWait → Option ProxyCredentialEntry
  | .credential => none
  | .policy entry => some entry
  | .owner entry _ _ => some entry
  | .connections result _ _ => result.credential
  | .selecting result => result.credential

def AdmissionProgress.carried : AdmissionProgress → Option ProxyCredentialEntry
  | .waits wait => wait.carried
  | .answers result => result.credential

/-- The entry is not an enabled credential with the id. -/
def Dormant (id : String) (entry : Option ProxyCredentialEntry) : Prop :=
  ∀ e, entry = some e → e.credentialId = id → e.credential.enabled = false

/-- The authority has no enabled credential with the id. -/
def Retired (id : String) (s : Authority) : Prop := Dormant id (s.getCredential id)

variable {id : String} {s : Authority}

theorem Retired.dormant (h : Retired id s) (other : String) : Dormant id (s.getCredential other) := by
  intro e he hid
  have hother : e.credentialId = other := (Table.find?_eq_some.mp he).2
  rw [← hother, hid] at he
  exact h e he hid

theorem Retired.of_same {s' : Authority} (h : Retired id s) (hsame : Same (.credential id) s s') :
    Retired id s' := by
  intro e he hid
  exact h e (hsame ▸ he : s.credentials.find? id = some e) hid

/-- A piece that ends with no enabled credential with the id. -/
abbrev Quiet (id : String) (task : Task AdmissionProgress) (s : Authority) : Prop :=
  AnswersAt (fun progress => Dormant id progress.carried) task s

theorem quiet_finishAdmission {result : AdmissionResult} (h : Dormant id result.credential) :
    Quiet id (finishAdmission request result) s := by
  refine answersAt_pure ?_
  split
  · exact h
  · exact h

theorem quiet_afterOwner {result : AdmissionResult} (policy : AccessPolicyEntry)
    (h : Dormant id result.credential) : Quiet id (afterOwner request result policy) s := by
  refine answersAt_query_bind (answersAt_query_bind ?_)
  split
  · exact quiet_finishAdmission h
  · split
    · exact answersAt_pure h
    · exact quiet_finishAdmission h

theorem quiet_ownerKnown {result : AdmissionResult} (policy : AccessPolicyEntry)
    (owner : Option AccessControlUser) (h : Dormant id result.credential) :
    Quiet id (ownerKnown request result policy owner) s := by
  unfold ownerKnown
  split
  · exact answersAt_fail _
  · split
    · exact answersAt_pure h
    · exact quiet_afterOwner policy h

theorem quiet_afterPolicy {entry : ProxyCredentialEntry} (policy : Option AccessPolicyEntry)
    (h : Dormant id (some entry)) : Quiet id (afterPolicy platform request now entry policy) s := by
  cases policy with
  | none => exact answersAt_pure h
  | some policy =>
    unfold afterPolicy
    dsimp only
    split
    · exact answersAt_pure h
    · cases ownerEmail platform entry.credential with
      | none => exact quiet_afterOwner policy h
      | some email =>
        refine answersAt_query_bind (answersAt_query_bind ?_)
        split
        · exact answersAt_pure h
        · exact quiet_ownerKnown policy _ h

theorem quiet_afterCredential {credential : Option ProxyCredentialEntry} (h : Dormant id credential) :
    Quiet id (afterCredential platform request now credential) s := by
  cases credential with
  | none => exact answersAt_pure h
  | some entry =>
    unfold afterCredential
    dsimp only
    split
    · exact answersAt_pure h
    · refine answersAt_query_bind (answersAt_query_bind ?_)
      split
      · exact answersAt_pure h
      · exact quiet_afterPolicy _ h

theorem quiet_admissionStart (h : Retired id s) : Quiet id (admissionStart platform request now) s := by
  refine answersAt_query_bind (answersAt_query_bind ?_)
  split
  · exact answersAt_pure fun e he => by cases he
  · exact quiet_afterCredential (h.dormant request.credentialId)

/-- **A piece carries no enabled credential that the authority does not have**, once the import of
    credentials is closed. -/
theorem quiet_resumeAdmission {wait : AdmissionWait} {reply : AdmissionReply} (h : Retired id s)
    (hclosed : s.hasMeta .credentials = true) (hwait : Dormant id wait.carried) :
    Quiet id (resumeAdmission platform request now wait reply) s := by
  unfold resumeAdmission
  split
  · refine AnswersAt.bind fun _ s' hrun => answersAt_query_bind ?_
    have hshields : Shields s s' := (shields_seedCredential _).run hrun
    have hretired : Retired id s' := h.of_same (hshields.2 _ (.inr hclosed))
    exact quiet_afterCredential (hretired.dormant request.credentialId)
  · refine AnswersAt.bind fun available s' _ => answersAt_query_bind ?_
    split
    · exact quiet_afterPolicy _ hwait
    · exact answersAt_pure hwait
  · exact answersAt_pure hwait
  · refine AnswersAt.bind fun available s' _ => answersAt_query_bind ?_
    split
    · exact quiet_ownerKnown _ _ hwait
    · exact answersAt_pure hwait
  · exact answersAt_pure hwait
  · refine AnswersAt.bind fun available s' _ => answersAt_query_bind ?_
    refine quiet_finishAdmission ?_
    split
    · exact hwait
    · exact hwait
  · exact quiet_finishAdmission hwait
  · refine answersAt_query_bind (answersAt_pure ?_)
    split
    · exact h.dormant request.credentialId
    · exact hwait
  · exact answersAt_fail _
  · exact answersAt_fail _

end Facts

end ClawRouter.Access
