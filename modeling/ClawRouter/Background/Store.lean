/-
  Subject:   `BackgroundStore` (src/worker/background-store.ts): the rows of one scope.

  The owner of a scope runs its mutations one after the other, each in one transaction, so one
  that throws changes nothing. Sixteen jobs may be active, and 64 rows are kept: a tombstone makes
  room for a new job. The rows of published inputs share the table, and only take room.

  * `exec`, `Step`: the mutations as one function of the clock and the table.
-/
import ClawRouter.Background.Record
import ClawRouter.Lib.Trace

namespace ClawRouter.Background

open Fallible Keyed Charging Continuation

/-! ## 1. Admission -/

/-- The legs an operation reserves. -/
structure BudgetReservationPlan where
  reservedMicros : Int
  legs : List BudgetReservationIntent

/-- The route a job was asked on. -/
structure AdmissionRoute where
  pathParams : List (String × String)
  organization : Option String
  project : Option String

/-- A job that is asked for. -/
structure BackgroundAdmission where
  id : String
  admittedAt : Int
  owner : ContinuationOwner
  facts : AccountingFacts
  plan : BudgetReservationPlan
  route : AdmissionRoute
  stream : Bool
  managed : Option ManagedAdmission

/-- The jobs, and how many assets hold a slot. -/
structure BackgroundStore where
  rows : Table BackgroundRecord.id
  assets : Nat

def capacity : HttpError :=
  ⟨503, "background_capacity", "background recovery scope has no admission capacity"⟩

def managedExists : HttpError := ⟨409, "background_job_exists", "managed admission already exists"⟩

def admissionExists : HttpError := ⟨409, "background_job_exists", "background admission already exists"⟩

def idempotencyConflict : HttpError :=
  ⟨409, "idempotency_conflict", "idempotency key was already used for a different request"⟩

def ownerChanged : HttpError := ⟨409, "background_owner_changed", "the original job policy has changed"⟩

def pricingRequired : HttpError :=
  ⟨400, "pricing_required",
    "managed predictions require an explicit policy-fixed tariff before dispatch"⟩

def metadataTooLarge : HttpError :=
  ⟨413, "background_metadata_too_large", "background recovery metadata exceeds 64 KiB"⟩

/-- `newBackgroundJob`, without the part of a managed job. -/
def newOperation (id : String) (admittedAt : Int) (facts : AccountingFacts)
    (plan : BudgetReservationPlan) : Operation where
  id := id
  admittedAt := admittedAt
  accounting := .facts facts
  reservedMicros := plan.reservedMicros
  legs := plan.legs.map fun intent => ⟨intent, .never, false, false, .pending⟩
  amount := none
  basis := none
  usage := .pending
  settlements := plan.legs.map fun _ => .pending
  lastError := none
  phase := .admitting
  responseId := none
  egress := false
  dispatchClaimed := false
  nextAttemptAt := admittedAt + 60000
  attempts := 0
  contentRef := none

def newBackgroundJob (input : BackgroundAdmission) : BackgroundJob where
  toOperation :=
  newOperation input.id input.admittedAt input.facts input.plan
  managed := input.managed.map fun managed =>
    ⟨{ managed with providerId := some input.owner.providerId }, input.owner.policyGeneration,
      .pending, none, none, none, []⟩
  inputReceipt := none

def managedProtocols : List String :=
  ["replicate.predictions", "fal.queue", "kie.jobs", "vydra.jobs", "dashscope.video",
    "pixverse.video", "runway.tasks", "together.video", "google.omni_video", "openrouter.video",
    "minimax.video"]

def isProviderId (id : String) : Bool :=
  1 ≤ id.length && id.length ≤ 64 &&
    (id.toList.head?.any fun c => c.isDigit || c.isLower) &&
    id.toList.all fun c => c.isDigit || c.isLower || ['_', '-'].contains c

/-- A base URL: `https`, a host, perhaps the default port, and a plain path. -/
def isBaseUrl (url : String) : Bool :=
  let rest := (url.toList.drop 8)
  let host := rest.takeWhile fun c => c.isDigit || c.isLower || ['.', '-'].contains c
  let afterHost := rest.drop host.length
  let path := if afterHost.take 4 = [':', '4', '4', '3'] then afterHost.drop 4 else afterHost
  url.startsWith "https://" && !host.isEmpty && (path.isEmpty || (path.head? = some '/' &&
      path.tail.all fun c => c.isAlphanum || ['_', '/', '-'].contains c))

def validateManagedMetadata (managed : ManagedAdmission) : Bool :=
  managedProtocols.contains managed.protocol && managed.providerId.all isProviderId &&
    (managed.protocol = "replicate.predictions" || managed.providerId.isSome) &&
    managed.idempotencyKey.all (isHex 64) && isHex 64 managed.requestDigest &&
    managed.fileBaseUrl.all (fun url => url.length ≤ 2048 && isBaseUrl url) &&
    isName 256 "_./:-" managed.requestedVersion

def validateManagedAdmission (input : BackgroundAdmission) (managed : ManagedAdmission) : Answer Unit := do
  require (validateManagedMetadata managed) invalid
  require (!input.stream && managed.providerId.getD "replicate" = input.owner.providerId) invalid
  require (input.facts.costBasis = "policy_fixed" &&
    (input.facts.fixed.any fun fixed => Budget.isSafeInteger (some fixed) && 0 ≤ fixed &&
      fixed = input.facts.reserveMicros &&
      input.plan.reservedMicros = (if input.plan.legs.isEmpty then 0 else fixed) &&
      input.plan.legs.all fun leg => leg.request.costMicros = fixed)) pricingRequired

/-- The row is the job of an idempotency key that may still be replayed. -/
def managedMatch (now : Int) (managed : ManagedAdmission) (key : String) (record : BackgroundRecord) : Bool :=
  record.managed.any (fun m => m.admission.protocol = managed.protocol &&
    m.admission.idempotencyKey = some key &&
    m.admission.providerId.getD "replicate" = managed.providerId.getD "replicate") &&
    now < record.replayUntil

namespace BackgroundStore

def managedRetry (s : BackgroundStore) (now : Int) (managed : ManagedAdmission)
    (policyGeneration : String) : Answer (Option BackgroundRecord) := do
  require (validateManagedMetadata managed) invalid
  match managed.idempotencyKey with
  | none => return none
  | some key =>
    match s.rows.rows.find? (managedMatch now managed key) with
    | none => return none
    | some record =>
      require (record.managed.any fun m => m.admission.requestDigest = managed.requestDigest)
        idempotencyConflict
      require (record.managed.any fun m => m.policyGeneration = policyGeneration) ownerChanged
      return some record

def evictable (now : Int) : BackgroundRecord → Bool
  | .live _ => false
  | .closed t => t.managed.isNone || t.replayUntil ≤ now

def oldest (s : BackgroundStore) (now : Int) : Option BackgroundRecord :=
  ((s.rows.rows.filter (evictable now)).mergeSort fun a b =>
    a.admittedAt < b.admittedAt || (a.admittedAt = b.admittedAt && a.id ≤ b.id)).head?

def active : BackgroundRecord → Bool
  | .live job => job.phase = .admitting || job.phase = .observing
  | .closed _ => false

/-- The part of `admit` about a managed job: it must be a new one. -/
def admitsManaged (s : BackgroundStore) (now : Int) (input : BackgroundAdmission) : Answer Unit :=
  match input.managed with
  | none => .ok ()
  | some managed => do
    validateManagedAdmission input managed
    let existing ← s.managedRetry now managed input.owner.policyGeneration
    require existing.isNone managedExists

/-- `admit`, of an admission whose job is not there yet. -/
def admitJob (s : BackgroundStore) (now : Int) (input : BackgroundAdmission) : Answer BackgroundStore := do
  require (isHexAfter "bg_" 32 input.id && Budget.isSafeInteger (some input.admittedAt) &&
    (now - input.admittedAt).natAbs ≤ 60000) invalid
  s.admitsManaged now input
  require (s.rows.find? input.id).isNone admissionExists
  require ((s.rows.rows.filter active).length < backgroundActiveLimit) capacity
  let record := BackgroundRecord.live (newBackgroundJob input)
  if s.rows.rows.length + s.assets < backgroundCapacity then
    return { s with rows := s.rows.upsert record }
  let evicted ← demand (s.oldest now) capacity
  return { s with rows := (s.rows.delete fun r => r.id == evicted.id).upsert record }

/-- The upload that goes with a job. -/
structure UploadAdmission where
  facts : AccountingFacts
  plan : BudgetReservationPlan

def validateInputAllocation (now : Int) (binding : ManagedInputBinding)
    (admission : BackgroundAdmission) (upload : UploadAdmission) : Answer Unit := do
  assertManagedInputLive now binding
  require (binding.expiresAt ≤ admission.admittedAt + 60000 && admission.id = binding.jobId &&
    binding.owner = admission.owner &&
    admission.managed.any (fun m => m.protocol = "pixverse.video" &&
      m.requestedVersion = binding.model) && admission.facts.model = some binding.modelId)
    inputUnavailable
  require (!admission.stream && admission.route.pathParams.isEmpty &&
    admission.route.organization.isNone && admission.route.project.isNone &&
    admission.facts.capability = "video.generate" &&
    upload.facts.capability = "pixverse.image_upload" &&
    admission.facts.eventId ≠ upload.facts.eventId &&
    admission.facts.requestId ≠ upload.facts.requestId &&
    upload.plan.legs.all (fun leg => admission.plan.legs.all fun other =>
      leg.reservationId ≠ other.reservationId)) inputUnavailable
  require ([(admission.facts, admission.plan), (upload.facts, upload.plan)].all fun operation =>
    operation.1.provider = "pixverse" && operation.1.grantKey = binding.owner.grantKey &&
      operation.1.model = some binding.modelId && operation.1.costBasis = "policy_fixed" &&
      (operation.1.fixed.any fun fixed => Budget.isSafeInteger (some fixed) && 0 ≤ fixed &&
        fixed = operation.1.reserveMicros &&
        operation.2.reservedMicros = (if operation.2.legs.isEmpty then 0 else fixed) &&
        operation.2.legs.all fun leg => leg.request.costMicros = fixed &&
          leg.request.capability = operation.1.capability)) inputUnavailable

/-- `allocateInput`: the job and its upload are admitted together. -/
def allocateInput (s : BackgroundStore) (now : Int) (binding : ManagedInputBinding)
    (admission : BackgroundAdmission) (upload : UploadAdmission) : Answer BackgroundStore := do
  validateInputAllocation now binding admission upload
  require (s.rows.find? admission.id).isNone inputUnavailable
  let admitted ← s.admitJob now admission
  let job : BackgroundJob := { newBackgroundJob admission with
    inputReceipt := some ⟨binding, .pending, none, false,
      .live (newOperation admission.id admission.admittedAt upload.facts upload.plan)⟩ }
  return { admitted with rows := admitted.rows.upsert (.live job) }

/-- `admitManaged`: a repeated admission finds its job. -/
def admitManaged (s : BackgroundStore) (now : Int) (input : BackgroundAdmission) :
    Answer (BackgroundStore × Bool) := do
  let managed ← demand input.managed invalid
  validateManagedAdmission input managed
  match ← s.managedRetry now managed input.owner.policyGeneration with
  | some _ => return (s, false)
  | none =>
    let admitted ← s.admitJob now input
    return (admitted, true)

/-! ## 2. The mutations -/

/-- `next_action_ms`: when the alarm looks at a row again. -/
def nextAction : BackgroundRecord → Option Int
  | .closed _ => none
  | .live job =>
    let observe := if job.event.isNone then [job.observeUntil] else []
    let attempt := if job.nextAttemptAt < job.autoRetryUntil then
        [if job.event.isNone && job.responseId.isNone && job.phase = .observing then
          job.observeUntil else job.nextAttemptAt]
      else []
    some ((observe ++ attempt).foldl min job.replayUntil)

def due (s : BackgroundStore) (now : Int) : List String :=
  (((s.rows.rows.filter fun r => (nextAction r).any (· ≤ now)).mergeSort fun a b =>
    ((nextAction a).getD 0) ≤ ((nextAction b).getD 0)).take 4).map BackgroundRecord.id

def save (s : BackgroundStore) : Option BackgroundRecord → BackgroundStore
  | none => s
  | some record => { s with rows := s.rows.upsert record }

def onRow (s : BackgroundStore) (id : String)
    (f : Option BackgroundRecord → Answer (Option BackgroundRecord)) : Answer BackgroundStore := do
  let row ← f (s.rows.find? id)
  return s.save row

def claimDue (s : BackgroundStore) (now : Int) : Answer BackgroundStore :=
  (s.due now).foldlM (fun s id => s.onRow id (claim now false)) s

end BackgroundStore

/-- A mutation of one job. -/
inductive RowOp
  | beginReserve (index : Nat) (uploading : Bool)
  | reserved (index : Nat) (allowed uploading : Bool)
  | dispatched (index : Nat) (uploading : Bool)
  | beginEgress
  | beginDispatch (contentRef : Option String) (input : Bool)
  | identity (responseId : String)
  | observeManaged (upstreamId status : String) (statusCode : Int) (attempt : Option Nat)
      (loss : Option ManagedObservationLoss)
  | bindManagedFiles (upstreamId : String) (files : List ManagedFileDescriptor)
  | freeze (outcome : AccountingOutcome) (uploading : Bool)
  | acknowledge (eventId : String) (ack : Acknowledgement) (uploading : Bool)
  | claim
  | retry (error : Option LastError) (attempt : Nat)
  | claimInputUpload (binding : ManagedInputBinding)
  | bindInputUpload (binding : ManagedInputBinding) (imageId : String)
  | claimInputCreate (binding : ManagedInputBinding)

def RowOp.run (now : Int) : RowOp → Option BackgroundRecord → Answer (Option BackgroundRecord)
  | .beginReserve index uploading => Background.beginReserve now index uploading
  | .reserved index allowed uploading => Background.reserved now index allowed uploading
  | .dispatched index uploading => Background.dispatched now index uploading
  | .beginEgress => Background.beginEgress now
  | .beginDispatch contentRef input => Background.beginDispatch now contentRef input
  | .identity responseId => Background.identity now responseId
  | .observeManaged upstreamId status statusCode attempt loss =>
    Background.observeManaged now upstreamId status statusCode attempt loss
  | .bindManagedFiles upstreamId files => Background.bindManagedFiles now upstreamId files
  | .freeze outcome uploading => Background.freeze now outcome uploading
  | .acknowledge eventId ack uploading => Background.acknowledge now eventId ack uploading
  | .claim => Background.claim now true
  | .retry error attempt => Background.retry now error attempt
  | .claimInputUpload binding => Background.claimInputUpload now binding
  | .bindInputUpload binding imageId => Background.bindInputUpload now binding imageId
  | .claimInputCreate binding => Background.claimInputCreate now binding

/-- A mutation of the store. -/
inductive Op
  | admitJob (input : BackgroundAdmission)
  | allocateInput (binding : ManagedInputBinding) (admission : BackgroundAdmission)
      (upload : BackgroundStore.UploadAdmission)
  | admitManaged (input : BackgroundAdmission)
  | row (id : String) (op : RowOp)
  | claimDue
  | allocatePublishedInput  -- a row of another kind

/-- The mutation as a function; `true` where it created the job of an admission. -/
def attempt (now : Int) (s : BackgroundStore) : Op → Answer (BackgroundStore × Bool)
  | .admitJob input => do return (← s.admitJob now input, true)
  | .allocateInput binding admission upload => do
    return (← s.allocateInput now binding admission upload, true)
  | .admitManaged input => s.admitManaged now input
  | .row id op => do return (← s.onRow id (op.run now), false)
  | .claimDue => do return (← s.claimDue now, false)
  | .allocatePublishedInput => do
    require (s.rows.rows.length + s.assets < backgroundCapacity) capacity
    return ({ s with assets := s.assets + 1 }, false)

/-- One transaction; `fits` tells whether the rows it saves are small enough. -/
def exec (now : Int) (fits : Bool) (s : BackgroundStore) (op : Op) : BackgroundStore × Answer Bool :=
  match attempt now s op with
  | .ok (s', created) => if fits then (s', .ok created) else (s, .error metadataTooLarge)
  | .error error => (s, .error error)

/-- A step of a store: the reading of the clock, a mutation and its answer. -/
abbrev Event := Int × (Op × Answer Bool)

def Step (s : BackgroundStore) (e : Event) (s' : BackgroundStore) : Prop :=
  ∃ fits, exec e.1 fits s e.2.1 = (s', e.2.2)

theorem step_exec {s : BackgroundStore} (now : Int) (op : Op) :
    Step s (now, (op, (exec now true s op).2)) (exec now true s op).1 := ⟨true, rfl⟩

def BackgroundStore.empty : BackgroundStore := ⟨Table.empty, 0⟩

end ClawRouter.Background
