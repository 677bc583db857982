/-
  Subject:   The receipt of a published input (src/worker/published-input-receipt.ts): its binding,
             the object it was published as, the attempt it was forwarded with.

  Every refusal is the same error. `Date.parse` and the parser of URLs belong to the platform.

  * `PublishedInputReceipt`: a receipt and the four states it goes through.
-/
import ClawRouter.Continuation.Store
import ClawRouter.Budget.Row

namespace ClawRouter.Published

open Fallible Continuation

/-! ## 1. The records -/

/-- What is read of a URL. -/
structure Url where
  protocol : String
  origin : String
  username : String
  password : String

/-- What the code asks of its platform: `Date.parse`, none for `NaN`, and `new URL`, none if it throws. -/
structure Platform where
  parseDate : String → Option Int
  parseUrl : String → Option Url

/-- A field `expiresAt` is absent, null or a text. -/
inductive IssuerProof
  | proxyKey (credentialId principalId : Option String) (secretSha256 : String)
    (expiresAt : Option (Option String))
  | local_ (email sessionSha256 : String) (expiresAtMs : Int)
  | cloudflareAccess (email : String) (expiresAtMs : Int)
  deriving DecidableEq

/-- Who controls an input. -/
structure PublicControlBinding where
  credentialId : Option String
  principalId : Option String
  policyId : String
  policyGeneration : String
  tenantId : String
  proof : IssuerProof
  deriving DecidableEq

/-- What an input is for. -/
structure PublishedInputBinding where
  version : String
  id : String
  scope : String
  issuer : PublicControlBinding
  owner : ContinuationOwner
  generation : Int
  publicOrigin : String
  origin : String
  path : String
  modelId : String
  upstreamModel : String
  slot : String
  requestDigest : String
  permissionDigest : String
  digest : String
  mime : String
  size : Int
  idempotencyDigest : String
  verifierDigest : String
  allocatedAt : Int
  expiresAt : Int
  deriving DecidableEq

/-- The object an input is stored as. -/
structure PublishedInputObject where
  key : String
  version : String
  etag : String
  digest : String
  mime : String
  size : Int
  deriving DecidableEq

/-- A reservation of an attempt. -/
structure Reservation where
  objectName : String
  reservationId : String
  deriving DecidableEq

/-- An attempt to forward an input. -/
structure PublishedInputAttempt where
  admissionDigest : String
  requestId : String
  eventId : String
  reservedMicros : Int
  reservations : List Reservation
  deriving DecidableEq

/-- How far an input is. -/
inductive ReceiptState
  | pending
  | publicationUnknown
  | published
  | forwardingUnknown
  deriving DecidableEq

def ReceiptState.name : ReceiptState → String
  | .pending => "pending"
  | .publicationUnknown => "publication_unknown"
  | .published => "published"
  | .forwardingUnknown => "forwarding_unknown"

/-- The place of a state in the order they come. -/
def ReceiptState.rank : ReceiptState → Nat
  | .pending => 0
  | .publicationUnknown => 1
  | .published => 2
  | .forwardingUnknown => 3

/-- The receipt of an input. -/
structure PublishedInputReceipt where
  version : String
  binding : PublishedInputBinding
  state : ReceiptState
  object : Option PublishedInputObject
  attempt : Option PublishedInputAttempt
  deriving DecidableEq

/-! ## 2. The checks -/

def publishedInputVersion : String := "clawrouter.published-input.v1"
def publishedInputSlot : String := "messages[0].content[1].image_url.url"
def publishedInputMaxBytes : Int := 8 * 1024 * 1024
def publishedInputLifetimeMs : Int := 15 * 60000

def publishedInputUnavailable : HttpError :=
  ⟨409, "published_input_unavailable", "the original published input or destination attempt is unavailable"⟩

/-- `text`: nonempty, within the limit, without control characters. -/
def text (value : String) (limit : Nat) : Bool :=
  0 < utf16Length value && utf16Length value ≤ limit && value.toList.all fun c =>
    0x20 ≤ c.toNat && c.toNat ≠ 0x7f

def digest (value : String) : Bool := isHex 64 value

def date (value : Int) : Bool := Budget.isSafeInteger (some value) && 0 < value

variable (p : Platform)

def readPublishedInputOrigin (value : String) : Option String :=
  match p.parseUrl value with
  | none => none
  | some url =>
    if url.protocol ≠ "https:" ∨ url.origin ≠ value ∨ url.username ≠ "" ∨ url.password ≠ "" then none
    else some url.origin

def validatePublishedIssuer (value : PublicControlBinding) : Bool :=
  value.credentialId.all (text · 256) && value.principalId.all (text · 256) && text value.policyId 256 &&
    text value.policyGeneration 256 && text value.tenantId 256 &&
    match value.proof with
    | .proxyKey credentialId principalId secretSha256 expiresAt =>
      credentialId = value.credentialId && credentialId.any (text · 256) && principalId = value.principalId &&
        digest secretSha256 && (expiresAt.join.all fun at_ => text at_ 256 && (p.parseDate at_).isSome)
    | .local_ email sessionSha256 expiresAtMs =>
      value.credentialId.isNone && value.principalId = some email && text email 256 && date expiresAtMs &&
        digest sessionSha256
    | .cloudflareAccess email expiresAtMs =>
      value.credentialId.isNone && value.principalId = some email && text email 256 && date expiresAtMs

def validatePublishedInput (value : PublishedInputBinding) : Bool :=
  value.version = publishedInputVersion && isHexAfter "asset_" 32 value.id &&
    isHexAfter "http-continuations:" 64 value.scope &&
    value.origin = "https://openrouter.ai" && value.path = "/api/v1/chat/completions" &&
    text value.modelId 256 && value.modelId.startsWith "openrouter/" &&
    ["google/lyria-3-pro-preview", "google/lyria-3-clip-preview"].contains value.upstreamModel &&
    value.slot = publishedInputSlot && digest value.requestDigest && digest value.permissionDigest &&
    digest value.digest && digest value.idempotencyDigest && digest value.verifierDigest &&
    ["image/png", "image/jpeg", "image/webp"].contains value.mime &&
    Budget.isSafeInteger (some value.size) && 1 ≤ value.size && value.size ≤ publishedInputMaxBytes &&
    Budget.isSafeInteger (some value.generation) && 1 ≤ value.generation &&
    date value.allocatedAt && date value.expiresAt && value.allocatedAt < value.expiresAt &&
    value.expiresAt - value.allocatedAt ≤ publishedInputLifetimeMs &&
    (readPublishedInputOrigin p value.publicOrigin).isSome &&
    value.owner.providerId = "openrouter" && value.owner.endpointId = "music_generate" &&
    value.owner.grantKey.any (fun key => text key 1024 && key.startsWith "oauth/") &&
    value.owner.lineage.any (text · 256) && digest value.owner.routeSha256 &&
    text value.owner.policyGeneration 256 &&
    validatePublishedIssuer p value.issuer && value.issuer.policyGeneration = value.owner.policyGeneration

def publishedInputKey (binding : PublishedInputBinding) : String :=
  "published-input/v1/" ++ (binding.scope.drop "http-continuations:".length).toString ++ "/" ++ binding.id

def proofLive (now : Int) : IssuerProof → Bool
  | .proxyKey _ _ _ expiresAt => expiresAt.join.all fun at_ => (p.parseDate at_).all (now < ·)
  | .local_ _ _ expiresAtMs => now < expiresAtMs
  | .cloudflareAccess _ expiresAtMs => now < expiresAtMs

def assertPublishedInputLive (now : Int) (binding : PublishedInputBinding) : Answer Unit := do
  require (validatePublishedInput p binding) publishedInputUnavailable
  require (date now && binding.allocatedAt ≤ now && now < binding.expiresAt) publishedInputUnavailable
  require (proofLive p now binding.issuer.proof) publishedInputUnavailable

/-- `samePublishedInput`: the canonical texts of two bindings are the same where the bindings are. -/
def samePublishedInput (a b : PublishedInputBinding) : Answer Bool := do
  require (validatePublishedInput p a) publishedInputUnavailable
  require (validatePublishedInput p b) publishedInputUnavailable
  return a = b

def validatePublishedObject (object : PublishedInputObject) (binding : PublishedInputBinding) : Answer Unit :=
  require (object.key = publishedInputKey binding && text object.version 256 && text object.etag 256 &&
    object.digest = binding.digest && object.mime = binding.mime && object.size = binding.size)
    publishedInputUnavailable

def validatePublishedAttempt (attempt : PublishedInputAttempt) : Answer Unit :=
  require (digest attempt.admissionDigest && text attempt.requestId 256 && text attempt.eventId 256 &&
    Budget.isSafeInteger (some attempt.reservedMicros) && 0 ≤ attempt.reservedMicros &&
    attempt.reservations.length ≤ 8 &&
    attempt.reservations.all fun leg => text leg.objectName 1024 && text leg.reservationId 256)
    publishedInputUnavailable

/-! ## 3. What the checks say -/

/-- The binding is well formed, its time has come and is not over, and its issuer is still proved. -/
structure Live (now : Int) (binding : PublishedInputBinding) : Prop where
  valid : validatePublishedInput p binding = true
  allocated : binding.allocatedAt ≤ now
  unexpired : now < binding.expiresAt
  proved : proofLive p now binding.issuer.proof = true

variable {p}

theorem assertPublishedInputLive_ok {now : Int} {binding : PublishedInputBinding}
    (h : assertPublishedInputLive p now binding = .ok ()) : Live p now binding := by
  unfold assertPublishedInputLive at h
  simp only [bind_ok, require_ok] at h
  obtain ⟨_, hvalid, _, htime, hproof⟩ := h
  simp only [Bool.and_eq_true, decide_eq_true_eq] at htime
  exact ⟨hvalid, htime.1.2, htime.2, hproof⟩

theorem samePublishedInput_ok {a b : PublishedInputBinding} {same : Bool}
    (h : samePublishedInput p a b = .ok same) : same = decide (a = b) := by
  unfold samePublishedInput at h
  simp only [bind_ok, pure_ok] at h
  obtain ⟨_, _, _, _, h⟩ := h
  exact h.symm

end ClawRouter.Published
