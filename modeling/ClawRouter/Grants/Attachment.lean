/-
  Subject:   The grant pools of the authority (src/worker/authority.ts): which grants are members,
             and in which state.

  The owner of a grant writes its credential and the authority lists the grant as a member of a
  pool; the two meet in three steps. The owner asks for a place (`admitGrantAttachment`), writes,
  and then tells what it wrote (`publishGrantAttachment`). A place nobody claimed is given back
  (`cancelPendingAttachment`). Each is one transaction, fenced by a revision and a generation that
  are kept for each key, also when the grant has left every pool.

  * `exec`, `Step`: the steps as one function of the tables.
-/
import ClawRouter.Budget.Row
import ClawRouter.Http
import ClawRouter.Lib.Trace

namespace ClawRouter.Grants

open Fallible Keyed

/-! ## 1. Keys -/

def invalidAuthorityRequest (message : String) : HttpError := ⟨400, "authority_error", message⟩

def grantKeyInvalid : HttpError := invalidAuthorityRequest "grant key is invalid"

def isControl (c : Char) : Bool := c.toNat ≤ 0x1f || c.toNat = 0x7f

def grantSegment (value field : String) : Answer String := do
  require (!value.isEmpty && utf16Length value ≤ 256 && !value.toList.contains '/' &&
    !value.toList.any isControl) (invalidAuthorityRequest (field ++ " must be a valid grant key segment"))
  return value

def grantKey (value : String) : Answer String := do
  require ("oauth/".toList.isPrefixOf value.toList && utf16Length value ≤ 1024 && !value.toList.any isControl)
    grantKeyInvalid
  return value

/-- Whose pool it is. -/
inductive PoolScope
  | tenants
  | policies
  deriving DecidableEq

/-- What a key names: `[scope, scope_id, token_ref]`. -/
structure GrantIdentity where
  scope : PoolScope
  scopeId : String
  tokenRef : String
  deriving DecidableEq

def segments (value : String) : List String := (value.toList.splitOn '/').map String.ofList

def grantPoolIdentity (value : String) : Answer GrantIdentity := do
  let key ← grantKey value
  match segments key with
  | [_, "tenants", scopeId, tokenRef] =>
    return ⟨.tenants, ← grantSegment scopeId "scopeId", ← grantSegment tokenRef "tokenRef"⟩
  | [_, scopeId, tokenRef] =>
    require (scopeId ≠ "tenants") grantKeyInvalid
    return ⟨.policies, ← grantSegment scopeId "scopeId", ← grantSegment tokenRef "tokenRef"⟩
  | _ => .error grantKeyInvalid

/-! ## 2. Tables -/

/-- The status of a grant. -/
inductive GrantAttachmentStatus
  | active
  | paused
  | reauthRequired
  deriving DecidableEq

/-- The `status` of a member, as it is stored. -/
inductive MemberStatus
  | legacy
  | active
  | paused
  | reauthRequired
  | pending
  | pendingInactive
  deriving DecidableEq

def GrantAttachmentStatus.stored : GrantAttachmentStatus → MemberStatus
  | .active => .active
  | .paused => .paused
  | .reauthRequired => .reauthRequired

namespace MemberStatus

def isPending : MemberStatus → Bool
  | .pending => true
  | .pendingInactive => true
  | _ => false

/-- `IN ('legacy', 'active', 'pending')`: the member takes one of the places of its pool. -/
def occupies : MemberStatus → Bool
  | .legacy => true
  | .active => true
  | .pending => true
  | _ => false

/-- `IN ('legacy', 'active')`: a request may be sent with the member. -/
def selectable : MemberStatus → Bool
  | .legacy => true
  | .active => true
  | _ => false

end MemberStatus

/-- A row of `upstream_grant_pool_members`. -/
structure Member where
  identity : GrantIdentity
  providerId : String
  status : MemberStatus
  pendingPreviousStatus : Option MemberStatus
  deriving DecidableEq

def Member.key (m : Member) : GrantIdentity × String := (m.identity, m.providerId)

/-- The row goes back to the state it had before it became pending. -/
def Member.takeBack (m : Member) : Member :=
  { m with status := m.pendingPreviousStatus.getD m.status, pendingPreviousStatus := none }

theorem Member.takeBack_key (m : Member) : m.takeBack.key = m.key := rfl

/-- The row gets the state its owner published. -/
def Member.publish (m : Member) (status : GrantAttachmentStatus) : Member :=
  { m with status := status.stored, pendingPreviousStatus := none }

theorem Member.publish_key (status : GrantAttachmentStatus) (m : Member) :
    (m.publish status).key = m.key := rfl

/-- A row of `upstream_grant_pool_versions`. -/
structure Version where
  grantKey : String
  generation : Int
  revision : Int
  deriving DecidableEq

/-- What `routingProjection` makes of a grant; `json` is the whole of it. -/
structure RoutingProjection where
  credentialGeneration : Option Int
  credentialStore : Option String
  json : String
  deriving DecidableEq

/-- A grant as the pools know it. -/
structure Projection where
  grantKey : String
  projection : Option RoutingProjection
  legacy : Bool
  deriving DecidableEq

/-- The runtime state of a grant, as it is stored. -/
structure GrantRuntime where
  grantKey : String
  stateJson : String
  deriving DecidableEq

/-- The tables of the pools. -/
structure GrantPools where
  members : Table Member.key
  versions : Table Version.grantKey
  projections : Table Projection.grantKey
  runtime : Table GrantRuntime.grantKey

/-! ## 3. Requests -/

/-- `GrantAttachmentMutation`; a number that is no integer is `none`, and the projection is what
    `routingProjection` made of the grant, or what it threw. -/
structure GrantAttachmentMutation where
  key : String
  generation : Option Int
  revision : Option Int
  admissionRevision : Option (Option Int)
  provider : Option String
  status : Option String
  projection : Option (Answer RoutingProjection)

/-- What an operator sees of a grant. -/
structure GrantAttachmentSnapshot where
  generation : Int
  revision : Int
  pending : Bool
  attached : Bool
  deriving DecidableEq

/-- What became of a publication. -/
inductive Outcome
  | attached
  | detached
  | unattached
  | pendingCancelled
  | unresolved
  deriving DecidableEq

/-- The answer, with the grant after it. -/
structure GrantAttachmentResult extends GrantAttachmentSnapshot where
  outcome : Outcome
  deriving DecidableEq

def attachmentChanged (message : String) : HttpError := ⟨409, "grant_attachment_changed", message⟩

def admissionRequired : HttpError :=
  ⟨409, "grant_attachment_admission_required",
    "resuming this attachment requires capacity admission"⟩

def poolFull : HttpError :=
  invalidAuthorityRequest
    "grant pool cannot contain more than 32 active or pending members per scope and provider"

def projectionMismatch : HttpError :=
  ⟨400, "invalid_authority_request", "projection generation must match its credential owner"⟩

def boundedInteger (value : Option Int) (field : String) (minimum maximum : Int) : Answer Int := do
  let n ← demand value (invalidAuthorityRequest (field ++ " is invalid"))
  require (Budget.isSafeInteger (some n) && minimum ≤ n && n ≤ maximum)
    (invalidAuthorityRequest (field ++ " is invalid"))
  return n

def optional {α β : Type} (check : α → Answer β) : Option α → Answer (Option β)
  | none => .ok none
  | some a => do return some (← check a)

def maxVersion : Int := Js.maxSafeInteger - 1

def parseStatus : Option String → Answer (Option GrantAttachmentStatus)
  | none => .ok none
  | some "active" => .ok (some .active)
  | some "paused" => .ok (some .paused)
  | some "reauth_required" => .ok (some .reauthRequired)
  | some _ => .error (invalidAuthorityRequest "attachment status is invalid")

/-- What `attachmentMutation` has checked; `admissionRevision` is the number that was sent. -/
structure Mutation where
  identity : GrantIdentity
  generation : Int
  admissionRevision : Option Int
  provider : Option String
  status : Option GrantAttachmentStatus
  current : GrantAttachmentSnapshot

namespace GrantPools

def attachmentMember (s : GrantPools) (identity : GrantIdentity) (provider : String) :
    Option Member := s.members.find? (identity, provider)

def generation (s : GrantPools) (key : String) : Int := ((s.versions.find? key).map Version.generation).getD 0

def revision (s : GrantPools) (key : String) : Int := ((s.versions.find? key).map Version.revision).getD 0

/-- Some row of an identity is in a state of a kind. -/
def anyMember (s : GrantPools) (identity : GrantIdentity) (p : Member → Bool) : Bool :=
  s.members.rows.any fun m => m.identity = identity && p m

/-- `grantAttachment`, of a key with its identity. -/
def snapshot (s : GrantPools) (key : String) (identity : GrantIdentity) : GrantAttachmentSnapshot where
  generation :=
  s.generation key
  revision := s.revision key
  pending := s.anyMember identity fun m => m.status.isPending
  attached := s.anyMember identity fun m => !m.status.isPending

def storeAttachmentVersion (s : GrantPools) (key : String) (generation revision : Int) :
    GrantPools := { s with versions := s.versions.upsert ⟨key, generation, revision⟩ }

/-- `attachmentMutation`: the checks of an admission and of a publication. -/
def attachmentMutation (s : GrantPools) (input : GrantAttachmentMutation) : Answer Mutation := do
  let identity ← grantPoolIdentity input.key
  let current := s.snapshot input.key identity
  let generation ← boundedInteger input.generation "generation" 0 maxVersion
  let revision ← boundedInteger input.revision "revision" 0 maxVersion
  let admissionRevision ←
    optional (fun sent => boundedInteger sent "admissionRevision" 0 maxVersion) input.admissionRevision
  let provider ← optional (fun provider => grantSegment provider "provider") input.provider
  let status ← parseStatus input.status
  require (revision = current.revision && current.generation ≤ generation)
    (attachmentChanged "attachment changed; reread the current owner before publication")
  return ⟨identity, generation, admissionRevision, provider, status, current⟩

/-! ## 4. Admission -/

/-- The places that are taken in the pool of a scope for a provider. -/
def occupied (s : GrantPools) (scope : PoolScope) (scopeId provider : String) : Int :=
  s.members.sumOn (fun m => m.identity.scope = scope && m.identity.scopeId = scopeId &&
    m.providerId = provider && m.status.occupies) fun _ => 1

/-- What a pending row goes back to when its place is given back. -/
def previousStatus : Option Member → Option MemberStatus
  | none => none
  | some m => if m.status.isPending then m.pendingPreviousStatus else some m.status

/-- The part of `admitGrantAttachment` that takes a place, where one is needed. -/
def reserveMember (s : GrantPools) (identity : GrantIdentity) :
    Option String → Option GrantAttachmentStatus → Answer GrantPools
  | some provider, some status => do
    let member := s.attachmentMember identity provider
    if member.isNone || (status = .active && !member.any fun m => m.status.occupies) then
      require (status ≠ .active || s.occupied identity.scope identity.scopeId provider < 32) poolFull
      let place : MemberStatus := if status = .active then .pending else .pendingInactive
      let row : Member := ⟨identity, provider, place, previousStatus member⟩
      return { s with members := s.members.upsert row }
    return s
  | _, _ => .ok s

def admitGrantAttachment (s : GrantPools) (input : GrantAttachmentMutation) :
    Answer (GrantPools × GrantAttachmentSnapshot) := do
  let m ← s.attachmentMutation input
  require (m.generation = m.current.generation)
    (attachmentChanged "reconcile the current owner before admission")
  let reserved ← s.reserveMember m.identity m.provider m.status
  let admitted := reserved.storeAttachmentVersion input.key m.current.generation (m.current.revision + 1)
  return (admitted, admitted.snapshot input.key m.identity)

/-! ## 5. Publication -/

/-- `restorePendingAttachment`: the places nobody claimed are given back. -/
def restorePendingAttachment (s : GrantPools) (identity : GrantIdentity) : GrantPools :=
  { s with
    members := (s.members.update
        (fun m => m.identity = identity && m.status.isPending && m.pendingPreviousStatus.isSome)
        Member.takeBack Member.takeBack_key).delete
        fun m => m.identity = identity && m.status.isPending }

def publishRoutingProjection (s : GrantPools) (key : String) (generation : Int) :
    Option (Answer RoutingProjection) → Answer GrantPools
  | none => .ok { s with projections := s.projections.upsert ⟨key, none, true⟩ }
  | some made => do
    let projection ← made
    require (projection.credentialGeneration = some generation &&
      projection.credentialStore = some "durable_object") projectionMismatch
    return { s with projections := s.projections.upsert ⟨key, some projection, false⟩ }

/-- The rows of an identity after its new state is published. -/
def publishMembers (s : GrantPools) (identity : GrantIdentity) (provider : Option String)
    (status : Option GrantAttachmentStatus) : GrantPools :=
  match status with
  | none => { s with members := s.members.delete fun m => m.identity = identity }
  | some status =>
    match provider.bind (s.attachmentMember identity) with
    | some member =>
      { s with
        members := (s.members.update (fun m => m.identity = identity && m.providerId = member.providerId)
            (fun m => m.publish status) (Member.publish_key status)).delete
            fun m => m.identity = identity && m.providerId ≠ member.providerId }
    | none =>
      { s with members := s.members.delete fun m => m.identity = identity && m.status.isPending }

/-- `upstream_grant_runtime` forgets what is not active. -/
def forgetRuntime (s : GrantPools) (key : String) (status : Option GrantAttachmentStatus) : GrantPools :=
  if status = some .active then s
  else { s with runtime := s.runtime.delete fun r => r.grantKey = key }

/-- A pending place was not taken by this publication. -/
def restores (m : Mutation) : Bool :=
  m.current.pending &&
    (m.admissionRevision ≠ some m.current.revision || m.generation = m.current.generation)

/-- The rows say already what a publication of the same generation says. -/
def agrees (s : GrantPools) (m : Mutation) (prepared : GrantAttachmentSnapshot) : Bool :=
  match m.status with
  | none => !prepared.attached
  | some status =>
    match m.provider.bind (s.attachmentMember m.identity) with
    | none => true
    | some member => member.status = status.stored &&
        !s.anyMember m.identity fun other => other.providerId ≠ m.provider.getD ""

def publishGrantAttachment (s : GrantPools) (input : GrantAttachmentMutation) :
    Answer (GrantPools × GrantAttachmentResult) := do
  let m ← s.attachmentMutation input
  let prepared := if restores m then s.restorePendingAttachment m.identity else s
  let snapshot := if restores m then prepared.snapshot input.key m.identity else m.current
  let member := m.provider.bind (prepared.attachmentMember m.identity)
  let outcome : Outcome := if m.status.isNone then .detached else if member.isSome then
    .attached else .unattached
  if m.generation = m.current.generation && !snapshot.pending then
    require (prepared.agrees m snapshot)
      (attachmentChanged "same-generation attachment publication differs from its committed state")
    let retired := if restores m
      then prepared.storeAttachmentVersion input.key m.generation (m.current.revision + 1)
      else prepared
    let published ← retired.publishRoutingProjection input.key m.generation input.projection
    return (published, ⟨published.snapshot input.key m.identity, outcome⟩)
  require (m.status ≠ some .active || member.all fun member => member.status.occupies) admissionRequired
  let members := prepared.publishMembers m.identity m.provider m.status
  let stored := (members.forgetRuntime input.key m.status).storeAttachmentVersion input.key
    m.generation (m.current.revision + 1)
  let published ← stored.publishRoutingProjection input.key m.generation input.projection
  return (published, ⟨published.snapshot input.key m.identity, outcome⟩)

/-! ## 6. Cancellation -/

def cancelPendingAttachment (s : GrantPools) (key : String) (revision : Option Int) :
    Answer (GrantPools × GrantAttachmentResult) := do
  let identity ← grantPoolIdentity key
  let current := s.snapshot key identity
  require (revision = some current.revision)
    (attachmentChanged "attachment revision changed; reread the owner before repair")
  if current.generation ≠ 0 then return (s, ⟨current, .unresolved⟩)
  let restored := if current.pending
    then (s.restorePendingAttachment identity).storeAttachmentVersion key 0 (current.revision + 1)
    else s
  let updated := restored.snapshot key identity
  return (restored, ⟨updated, if updated.attached then .unresolved else .pendingCancelled⟩)

end GrantPools

/-! ## 7. Steps -/

/-- A mutation of the pools. -/
inductive Op
  | admitGrant (input : GrantAttachmentMutation)
  | publish (input : GrantAttachmentMutation)
  | cancelPending (key : String) (revision : Option Int)

/-- The step as a function; the reply of an admission is without an outcome. -/
def attempt (s : GrantPools) : Op → Answer (GrantPools × GrantAttachmentSnapshot × Option Outcome)
  | .admitGrant input => do
    let (s', snapshot) ← s.admitGrantAttachment input
    return (s', snapshot, none)
  | .publish input => do
    let (s', result) ← s.publishGrantAttachment input
    return (s', result.toGrantAttachmentSnapshot, some result.outcome)
  | .cancelPending key revision => do
    let (s', result) ← s.cancelPendingAttachment key revision
    return (s', result.toGrantAttachmentSnapshot, some result.outcome)

abbrev Reply := Answer (GrantAttachmentSnapshot × Option Outcome)

/-- One transaction: one that throws changes nothing. -/
def exec (s : GrantPools) (op : Op) : GrantPools × Reply :=
  match attempt s op with
  | .ok (s', reply) => (s', .ok reply)
  | .error error => (s, .error error)

def Step (s : GrantPools) (a : Op × Reply) (s' : GrantPools) : Prop := exec s a.1 = (s', a.2)

theorem step_exec {s : GrantPools} (op : Op) : Step s (op, (exec s op).2) (exec s op).1 := rfl

end ClawRouter.Grants
