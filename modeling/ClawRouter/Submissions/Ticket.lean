/-
  Subject:   Submission tickets (src/worker/authority.ts) and what may be submitted with one
             (src/worker/pool-submissions.ts).

  A ticket lets somebody who is no administrator put one credential into one place of a pool. The
  authority keeps the ticket as one row and answers three calls about it; each is one transaction.

  * `normalizeSubmission`: the grant a submission asks for, or why it is refused.
-/
import ClawRouter.Access.Records

namespace ClawRouter.Submissions

open Fallible Grants Js

/-! ## 1. Tickets -/

/-- What a ticket is for. -/
inductive GrantKind
  | apiKey
  | oauth
  | subscription
  deriving DecidableEq

/-- How far a ticket is. -/
inductive TicketState
  | ready
  | claimed
  | consumed
  deriving DecidableEq

/-- What a consumed ticket keeps. -/
structure Receipt where
  grantKey : String
  submittedAt : Int
  deriving DecidableEq

/-- `PoolSubmissionTicketView`: a ticket without its secret, its digest and its claim. -/
structure TicketView where
  id : String
  scope : PoolScope
  scopeId : String
  tokenRef : String
  provider : String
  kind : GrantKind
  label : Option String
  priority : Int
  weight : String
  contributor : Option String
  keepWarm : Bool
  createdAtMs : Int
  expiresAtMs : Int
  state : TicketState
  claimedAtMs : Option Int
  receipt : Option Receipt
  deriving DecidableEq

/-- `PoolSubmissionTicket`, a row of `pool_submission_tickets`. -/
structure Ticket extends TicketView where
  secretSha256 : String
  submissionSha256 : Option String
  claimId : Option String
  deriving DecidableEq

def ticketIdShape (id : String) : Bool :=
  "pst_".toList.isPrefixOf id.toList && 20 ≤ id.length && id.length ≤ 132 &&
    id.toList.all fun c => c.isAlphanum || c = '_' || c = '-'

def submissionTicketId (id : String) : Answer String := do
  require (ticketIdShape id) (invalidAuthorityRequest "submission ticket id is invalid")
  return id

def sha256Digest (value : String) : Bool :=
  value.length = 64 && value.toList.all fun c => c.isDigit || 'a' ≤ c && c ≤ 'f'

/-! ## 2. The calls -/

/-- A claim on a ticket. -/
structure ClaimRequest where
  id : String
  secretSha256 : String
  submissionSha256 : String
  deriving DecidableEq

/-- What a claim is answered. -/
inductive ClaimResult
  | denied
  | expired
  | claimed (ticket : TicketView) (claimId : String)
  | alreadyConsumed (ticket : TicketView) (receipt : Option Receipt)
  deriving DecidableEq

def Ticket.claimedBy (ticket : Ticket) (digest claimId : String) (now : Int) : Ticket :=
  { ticket with
    state := .claimed, submissionSha256 := some digest, claimId := some claimId
    claimedAtMs := some now }

def Ticket.consumedWith (ticket : Ticket) (receipt : Receipt) : Ticket :=
  { ticket with state := .consumed, receipt := some receipt, claimId := none, claimedAtMs := none }

def Ticket.readyAgain (ticket : Ticket) : Ticket :=
  { ticket with state := .ready, submissionSha256 := none, claimId := none, claimedAtMs := none }

/-- What a claim of a ticket with the right secret does; `claimId` is the identifier it may make. -/
def claimTicket (ticket : Ticket) (digest claimId : String) (now : Int) : Ticket × ClaimResult :=
  match ticket.state with
  | .consumed =>
    if ticket.submissionSha256 = some digest then
      (ticket, .alreadyConsumed ticket.toTicketView ticket.receipt)
    else (ticket, .denied)
  | .claimed =>
    match ticket.claimId with
    | some held =>
      if ticket.submissionSha256 = some digest then (ticket, .claimed ticket.toTicketView held)
      else (ticket, .denied)
    | none => (ticket, .denied)
  | .ready =>
    let claimed := ticket.claimedBy digest claimId now
    (claimed, .claimed claimed.toTicketView claimId)

def claimSubmissionTicket (row : Option Ticket) (input : ClaimRequest) (claimId : String)
    (now : Int) : Answer (Option Ticket × ClaimResult) := do
  let _ ← submissionTicketId input.id
  match row with
  | none => return (none, .denied)
  | some ticket =>
    if !sha256Digest input.secretSha256 || ticket.secretSha256 ≠ input.secretSha256 then
      return (row, .denied)
    else if ticket.expiresAtMs ≤ now then return (row, .expired)
    else do
      require (sha256Digest input.submissionSha256) (invalidAuthorityRequest "submission digest is invalid")
      let (ticket', result) := claimTicket ticket input.submissionSha256 claimId now
      return (some ticket', result)

/-- `!ticket || ticket.state !== "claimed" || !ticket.claimId || ticket.claimId !== claimId`, denied. -/
def holdsClaim (row : Option Ticket) (claimId : String) : Bool :=
  row.any fun ticket => ticket.state = .claimed && ticket.claimId = some claimId

def completeSubmissionTicket (row : Option Ticket) (id claimId : String) (receipt : Receipt) :
    Answer (Option Ticket × ClaimResult) := do
  let _ ← submissionTicketId id
  match row with
  | none => return (none, .denied)
  | some ticket =>
    if holdsClaim row claimId then do
      let _ ← grantKey receipt.grantKey
      let consumed := ticket.consumedWith receipt
      return (some consumed, .alreadyConsumed consumed.toTicketView (some receipt))
    else return (row, .denied)

def releaseSubmissionTicket (row : Option Ticket) (id claimId : String) : Answer (Option Ticket) := do
  let _ ← submissionTicketId id
  return if holdsClaim row claimId then row.map Ticket.readyAgain else row

/-! ## 3. The digest of a submission -/

section Canonical

-- The order of `left.localeCompare(right) <= 0`.
variable (localeLe : String → String → Bool)

/-- The texts of the members of an object, by name. -/
def joinMembers (members : List (String × List Char)) : List Char :=
  (((members.mergeSort fun a b => localeLe a.1 b.1).map Prod.snd).intersperse [',']).flatten

mutual

def canonicalChars : Json → List Char
  | .arr items => '[' :: canonicalItems items ++ [']']
  | .obj members => '\x7b' :: joinMembers localeLe (canonicalMembers members) ++ ['\x7d']
  | value => value.render

def canonicalItems : List Json → List Char
  | [] => []
  | [item] => canonicalChars item
  | item :: rest => canonicalChars item ++ ',' :: canonicalItems rest

/-- The members of an object with their texts, in the order of the object. -/
def canonicalMembers : List (String × Json) → List (String × List Char)
  | [] => []
  | (name, item) :: rest =>
    (name, Json.quoteChars name.toList ++ ':' :: canonicalChars item) :: canonicalMembers rest

end

def canonicalJson (value : Json) : String := String.ofList (canonicalChars localeLe value)

end Canonical

/-! ## 4. Submissions -/

def invalidSubmission (message : String) : HttpError := ⟨400, "invalid_pool_submission", message⟩

def allowedFields : List String :=
  ["credential", "credentials", "accessToken", "refreshToken", "tokenType", "expiresAt",
    "refreshTokenExpiresAt", "lastManualAuthorizationAt", "scopes", "accountId", "subscription"]

/-- `Date.parse`, where it is a number, and `authorizationTimestamp`. -/
structure Dates where
  parse : String → Option Int
  authorizationTimestamp : Json → Option Int

def optionalString (value : Option Json) (field : String) (maxBytes : Nat) : Answer (Option String) :=
  match value with
  | none => .ok none
  | some .null => .ok none
  | some (.str s) =>
    if s ≠ "" ∧ s.utf8ByteSize ≤ maxBytes then .ok (some s)
    else .error (invalidSubmission (field ++ " must be a non-empty bounded string"))
  | some _ => .error (invalidSubmission (field ++ " must be a non-empty bounded string"))

def optionalTimestamp (dates : Dates) (value : Option Json) (field : String) : Answer (Option Int) :=
  match value with
  | none => .ok none
  | some .null => .ok none
  | some (.str s) => do
    let time ← demand (dates.parse s) (invalidSubmission (field ++ " must be a valid timestamp"))
    return some time
  | some _ => .error (invalidSubmission (field ++ " must be a valid timestamp"))

def optionalAuthorizationTimestamp (dates : Dates) (value : Option Json) (field : String) :
    Answer (Option Int) := do
  let timestamp := value.bind dates.authorizationTimestamp
  require (!Json.present value || timestamp.isSome)
    (invalidSubmission (field ++ " must be ISO-8601 or epoch milliseconds"))
  return timestamp

def listItem (maxLength : Nat) : Json → Option String
  | .str s => if s ≠ "" ∧ utf16Length s ≤ maxLength then some s else none
  | _ => none

def stringList (value : Option Json) (field : String) (maxItems maxLength : Nat) : Answer (List String) :=
  let refused := invalidSubmission (field ++ " must be a bounded string array")
  match value with
  | none => .ok []
  | some .null => .ok []
  | some (.arr items) => do
    require (items.length ≤ maxItems) refused
    let strings ← demand (items.mapM (listItem maxLength)) refused
    return strings.eraseDups
  | some _ => .error refused

def nullableString (value : Option Json) (field : String) : Answer (Option String) :=
  match value with
  | none => .ok none
  | some .null => .ok none
  | some (.str s) =>
    if s ≠ "" ∧ utf16Length s ≤ 1024 then .ok (some s)
    else .error (invalidSubmission (field ++ " must be a bounded string or null"))
  | some _ => .error (invalidSubmission (field ++ " must be a bounded string or null"))

/-- The subscription of a submission. -/
structure Subscription where
  plan : Option String
  subject : Option String
  deriving DecidableEq

def subscriptionMetadata (value : Option Json) : Answer (Option Subscription) :=
  match value with
  | none => .ok none
  | some .null => .ok none
  | some (.obj members) => do
    require (members.all fun m => ["plan", "subject"].contains m.1)
      (invalidSubmission "subscription contains an unsupported field")
    let plan ← nullableString (members.lookup "plan") "subscription.plan"
    let subject ← nullableString (members.lookup "subject") "subscription.subject"
    return some ⟨plan, subject⟩
  | some _ => .error (invalidSubmission "subscription must be an object")

/-- A member of a bundle: `/^[A-Za-z0-9_.-]{1,128}$/` and a secret that is not blank. -/
def bundleItem : String × Json → Option (String × String)
  | (name, .str secret) =>
    if !name.isEmpty && name.length ≤ 128 &&
        (name.toList.all fun c => c.isAlphanum || c = '_' || c = '.' || c = '-') &&
        secret.toList.any (fun c => !Usage.isSpace c) then some (name, secret)
    else none
  | _ => none

/-- `validCredentialBundle` of at most 32 fields. -/
def credentialBundle (value : Option Json) : Answer (List (String × String)) :=
  let refused := invalidSubmission "credentials must contain 1 to 32 non-empty string fields"
  match value with
  | none => .ok []
  | some .null => .ok []
  | some (.obj members) => do
    let bundle ← demand (members.mapM bundleItem) refused
    require (bundle.length ≤ 32) refused
    return bundle
  | some _ => .error refused

/-- What is submitted. -/
structure Submission where
  priority : Int
  weight : String
  kind : GrantKind
  provider : String
  label : String
  credential : Option String
  credentials : List (String × String)
  accessToken : Option String
  refreshToken : Option String
  tokenType : String
  expiresAt : Option Int
  refreshTokenExpiresAt : Option Int
  lastManualAuthorizationAt : Option Int
  scopes : List String
  accountId : Option String
  subscription : Option Subscription
  keepWarm : Bool
  createdAt : Int
  updatedAt : Int
  deriving DecidableEq

def submissionLabel (ticket : TicketView) : String :=
  match ticket.label, ticket.contributor with
  | some label, _ => label
  | none, some contributor =>
    if contributor.isEmpty then ticket.provider ++ " contribution"
    else ticket.provider ++ " — " ++ contributor
  | none, none => ticket.provider ++ " contribution"

/-- A secret of the kind the ticket asks for is there. -/
def requireKind (kind : GrantKind) (credential accessToken : Option String)
    (credentials : List (String × String)) : Answer Unit :=
  match kind with
  | .apiKey => require (credential.isSome || !credentials.isEmpty)
      (invalidSubmission "api_key submissions require credential or credentials")
  | .oauth => require accessToken.isSome (invalidSubmission "oauth submissions require accessToken")
  | .subscription => require (accessToken.isSome || credential.isSome)
      (invalidSubmission "subscription submissions require accessToken or credential")

def firstUnknown (members : List (String × Json)) : Option String :=
  (((members.map Prod.fst).filter fun name => !allowedFields.contains name).mergeSort
    fun a b => Access.utf16Units a ≤ Access.utf16Units b).head?

def normalizeSubmission (dates : Dates) (now : Int) (ticket : TicketView) : Json → Answer Submission
  | .obj members => do
    if let some name := firstUnknown members then
      throw (invalidSubmission ("submission field is not allowed: " ++ name))
    let credential ← optionalString (members.lookup "credential") "credential" (64 * 1024)
    let accessToken ← optionalString (members.lookup "accessToken") "accessToken" (64 * 1024)
    let refreshToken ← optionalString (members.lookup "refreshToken") "refreshToken" (64 * 1024)
    let credentials ← credentialBundle (members.lookup "credentials")
    requireKind ticket.kind credential accessToken credentials
    let expiresAt ← optionalTimestamp dates (members.lookup "expiresAt") "expiresAt"
    let scopes ← stringList (members.lookup "scopes") "scopes" 128 512
    let tokenType ← optionalString (members.lookup "tokenType") "tokenType" 64
    let accountId ← optionalString (members.lookup "accountId") "accountId" 1024
    let subscription ← subscriptionMetadata (members.lookup "subscription")
    let refreshTokenExpiresAt ← optionalAuthorizationTimestamp dates
      (members.lookup "refreshTokenExpiresAt") "refreshTokenExpiresAt"
    let lastManualAuthorizationAt ← optionalAuthorizationTimestamp dates
      (members.lookup "lastManualAuthorizationAt") "lastManualAuthorizationAt"
    return {
      priority := ticket.priority, weight := ticket.weight, kind := ticket.kind
      provider := ticket.provider, label := submissionLabel ticket
      credential, credentials, accessToken, refreshToken, tokenType := tokenType.getD "Bearer"
      expiresAt, refreshTokenExpiresAt, lastManualAuthorizationAt, scopes, accountId, subscription
      keepWarm := ticket.keepWarm, createdAt := now, updatedAt := now }
  | _ => .error (invalidSubmission "submission must be a JSON object")

def submissionKey (ticket : TicketView) : String :=
  match ticket.scope with
  | .policies => "oauth/" ++ ticket.scopeId ++ "/" ++ ticket.tokenRef
  | .tenants => "oauth/tenants/" ++ ticket.scopeId ++ "/" ++ ticket.tokenRef

end ClawRouter.Submissions
