/-
  Subject:   The record of a background job (src/worker/background-store.ts,
             src/worker/managed-input-receipt.ts) and what is done to one record.

  A job, and the upload nested in it, is an operation with legs on the budget ledgers, an
  accounting event that is frozen once, and what the sinks of the event answered. When all of
  them have, or when nothing is retried any more, a tombstone takes the place of the record.

  * `freeze`, `acknowledge`, `claim`, … : the mutations of a row, in the order of the source.
-/
import ClawRouter.Charging.Network
import ClawRouter.Continuation.Store

namespace ClawRouter.Background

open Fallible Charging Continuation

/-! ## 1. Errors -/

def invalid : HttpError := ⟨400, "background_request_invalid", "invalid background recovery transition"⟩

def missing : HttpError :=
  ⟨404, "background_unavailable",
    "background recovery record is unavailable; this does not confirm settlement"⟩

def closedJob : HttpError := ⟨409, "background_closed", "background financial recovery is closed"⟩

def admissionExpired : HttpError :=
  ⟨409, "background_admission_expired", "background admission is no longer available"⟩

def dispatchClaimed : HttpError :=
  ⟨409, "background_dispatch_claimed",
    "background dispatch was already claimed; never repeat generation"⟩

def notFinal : HttpError :=
  ⟨409, "background_not_final", "manual recovery can only replay a frozen financial receipt"⟩

def identityConflict : HttpError :=
  ⟨502, "background_identity_conflict", "upstream changed the background response identity"⟩

def filesUnavailable : HttpError :=
  ⟨409, "managed_files_unavailable",
    "files require the original succeeded managed job before its retention deadline"⟩

def invalidFiles : HttpError :=
  ⟨400, "managed_files_invalid",
    "managed files require at most 64 bounded native identifiers and media types"⟩

def fileConflict : HttpError :=
  ⟨409, "managed_file_conflict", "a bound output file cannot change its media type"⟩

def inputUnavailable : HttpError :=
  ⟨409, "managed_input_unavailable",
    "the original input intent is unavailable or already attempted; never replay an upload or create"⟩

/-! ## 2. Receipts -/

def backgroundObservationMs : Int := 60 * 60000
def backgroundAutoRetryMs : Int := 7 * 86400000
def backgroundReplayMs : Int := 44 * 86400000
def backgroundActiveLimit : Nat := 16
def backgroundCapacity : Nat := 64

/-- The part of `AccountingFacts` the owner reads. -/
structure AccountingFacts where
  eventId : String
  requestId : String
  provider : String
  grantKey : Option String
  model : Option String
  capability : String
  fixed : Option Int
  costBasis : String
  reserveMicros : Int
  deriving DecidableEq

/-- The event that a job is accounted with, and what its sinks receive. -/
structure UsageEvent where
  id : String
  requestId : String
  occurredAtMs : Int
  statusCode : Option Int
  status : String
  reservedCostMicros : Int
  actualCostMicros : Int
  costBasis : String
  contentRef : Option String
  deriving DecidableEq

/-- `AccountingOutcome`; `measured` is what the tokens of the outcome cost, with its basis. -/
structure AccountingOutcome where
  occurredAtMs : Int
  statusCode : Option Int
  status : String
  billable : Bool
  measured : Option (Int × String)
  contentRef : Option String
  deriving DecidableEq

/-- `accountingReceipt`: what is not billable costs nothing, and what is not measured costs the
    fixed price or the reservation. Accounting/Receipt.lean has every basis of it. -/
def accountingReceipt (facts : AccountingFacts) (reservedMicros : Int)
    (outcome : AccountingOutcome) : UsageEvent where
  id := facts.eventId
  requestId := facts.requestId
  occurredAtMs := outcome.occurredAtMs
  statusCode := outcome.statusCode
  status := outcome.status
  reservedCostMicros := reservedMicros
  actualCostMicros := if outcome.billable then
      min Js.maxSafeInteger ((outcome.measured.map Prod.fst).getD (facts.fixed.getD facts.reserveMicros))
    else 0
  costBasis := if outcome.billable then
      (outcome.measured.map Prod.snd).getD
        (if facts.costBasis = "manifest_pricing" then "manifest_reservation" else facts.costBasis)
    else "none"
  contentRef := outcome.contentRef

/-! ## 3. Operations -/

/-- How far the settlement of a leg is. -/
inductive SettlementDisposition
  | pending
  | settled
  | missing
  | conflict
  | unavailable
  deriving DecidableEq

/-- How far the reservation of a leg is. -/
inductive ReserveState
  | never
  | sent
  | accepted
  | denied
  deriving DecidableEq

/-- A reservation of an operation. -/
structure BackgroundLeg where
  intent : BudgetReservationIntent
  reserve : ReserveState
  uncertainReserve : Bool
  dispatched : Bool
  settlement : SettlementDisposition
  deriving DecidableEq

/-- How far the usage of an operation is. -/
inductive UsageState
  | pending
  | stored
  | duplicate
  | expiredByRetention
  | unavailable
  deriving DecidableEq

/-- `["stored", "duplicate", "expired_by_retention"].includes(usage)`. -/
def UsageState.final : UsageState → Bool
  | .stored => true
  | .duplicate => true
  | .expiredByRetention => true
  | _ => false

/-- The last failure of an operation. -/
inductive LastError
  | admissionLost
  | observationUnavailable
  | observationExpired
  | accountingUnavailable
  deriving DecidableEq

/-- Where a live operation is. -/
inductive LivePhase
  | admitting
  | observing
  | outbox
  deriving DecidableEq

/-- `facts` and `event`: the facts are kept until the event is frozen from them. -/
inductive Accounting
  | facts (facts : AccountingFacts)
  | event (event : UsageEvent)
  deriving DecidableEq

/-- The part of a job and of an upload that is the same. The times `observeUntil`,
    `autoRetryUntil` and `replayUntil` are stored by the source and follow from `admittedAt`. -/
structure Operation where
  id : String
  admittedAt : Int
  accounting : Accounting
  reservedMicros : Int
  legs : List BackgroundLeg
  amount : Option Int
  basis : Option String
  usage : UsageState
  settlements : List SettlementDisposition
  lastError : Option LastError
  phase : LivePhase
  responseId : Option String
  egress : Bool
  dispatchClaimed : Bool
  nextAttemptAt : Int
  attempts : Nat
  contentRef : Option String
  deriving DecidableEq

def Operation.event (op : Operation) : Option UsageEvent :=
  match op.accounting with
  | .event event => some event
  | .facts _ => none

def Operation.observeUntil (op : Operation) : Int := op.admittedAt + backgroundObservationMs
def Operation.autoRetryUntil (op : Operation) : Int := op.admittedAt + backgroundAutoRetryMs
def Operation.replayUntil (op : Operation) : Int := op.admittedAt + backgroundReplayMs

/-- How an operation is over. -/
inductive ClosedPhase
  | complete
  | expired
  deriving DecidableEq

/-- What is left of an operation that is over. -/
structure Tombstone where
  id : String
  admittedAt : Int
  amount : Option Int
  basis : Option String
  usage : UsageState
  settlements : List SettlementDisposition
  lastError : Option LastError
  phase : ClosedPhase
  deriving DecidableEq

def Tombstone.replayUntil (t : Tombstone) : Int := t.admittedAt + backgroundReplayMs

/-- An operation, or what is left of it. -/
inductive OperationRecord
  | live (op : Operation)
  | closed (t : Tombstone)
  deriving DecidableEq

namespace Operation

def close (op : Operation) (phase : ClosedPhase) : Tombstone :=
  ⟨op.id, op.admittedAt, op.amount, op.basis, op.usage, op.settlements, op.lastError, phase⟩

/-- Every leg is settled and the usage event has arrived. -/
def accounted (op : Operation) : Bool := op.settlements.all (fun s => s = .settled) && op.usage.final

def setLeg (op : Operation) (index : Nat) (leg : BackgroundLeg) : Operation :=
  { op with legs := op.legs.set index leg }

/-- A leg whose reservation was never sent, or was denied for sure. -/
def unreserved (leg : BackgroundLeg) : Bool :=
  leg.reserve = .never || (leg.reserve = .denied && !leg.uncertainReserve)

/-- `beginReserve`: the reservation of a leg is sent, perhaps again. -/
def beginReserve (op : Operation) (index : Nat) : Answer Operation := do
  let leg ← demand op.legs[index]? invalid
  require (leg.reserve = .never || leg.reserve = .sent) invalid
  return op.setLeg index
    { leg with reserve := .sent, uncertainReserve := leg.uncertainReserve || leg.reserve = .sent }

def reserved (op : Operation) (index : Nat) (allowed : Bool) : Answer Operation := do
  let leg ← demand op.legs[index]? invalid
  require (leg.reserve = .sent) invalid
  return op.setLeg index { leg with reserve := if allowed then .accepted else .denied }

def dispatched (op : Operation) (index : Nat) : Answer Operation := do
  let leg ← demand op.legs[index]? invalid
  require (leg.reserve = .accepted) invalid
  return op.setLeg index { leg with dispatched := true }

/-- `freeze`, of one operation: the first event stays. -/
def freeze (op : Operation) (outcome : AccountingOutcome) (now : Int) : Operation :=
  match op.accounting with
  | .event _ => op
  | .facts facts =>
    let event := accountingReceipt facts op.reservedMicros
      { outcome with contentRef := outcome.contentRef.or op.contentRef }
    let legs := op.legs.map fun leg =>
      if unreserved leg then { leg with settlement := .settled } else leg
    { op with
      accounting := .event event, amount := some event.actualCostMicros
      basis := some event.costBasis, phase := .outbox, responseId := none, legs := legs
      settlements := legs.map BackgroundLeg.settlement, nextAttemptAt := now }

end Operation

/-! ## 4. Jobs -/

/-- How far a managed job was sent. -/
inductive Submission
  | pending
  | submissionUnknown
  | bound
  deriving DecidableEq

/-- How a managed job ended. -/
inductive ManagedTerminal
  | succeeded
  | failed
  | canceled
  | aborted
  deriving DecidableEq

/-- Why a managed job can not be observed. -/
inductive ManagedObservationLoss
  | expiredOrUnknown
  | deleted
  | canceledOrDeleted
  deriving DecidableEq

/-- A file of a managed job. -/
structure ManagedFileDescriptor where
  id : String
  mimeType : String
  deriving DecidableEq

/-- What a managed admission is recognised by. -/
structure ManagedAdmission where
  protocol : String
  providerId : Option String
  idempotencyKey : Option String
  requestDigest : String
  requestedVersion : String
  fileBaseUrl : Option String
  deriving DecidableEq

/-- The managed part of a job. -/
structure ManagedState where
  admission : ManagedAdmission
  policyGeneration : String
  submission : Submission
  upstreamId : Option String
  terminal : Option ManagedTerminal
  observationUnavailable : Option ManagedObservationLoss
  files : List ManagedFileDescriptor
  deriving DecidableEq

/-- What an input is for. -/
structure ManagedInputBinding where
  version : String
  inputProfile : Option String
  scope : String
  jobId : String
  owner : ContinuationOwner
  generation : Int
  product : String
  origin : String
  region : String
  modelId : String
  model : String
  slot : String
  digest : String
  createDigest : String
  size : Int
  mime : String
  expiresAt : Int
  deriving DecidableEq

/-- How far an input is. -/
inductive InputState
  | pending
  | dispatchUnknown
  | bound
  deriving DecidableEq

/-- The input of a job, with its upload. -/
structure ManagedInputReceipt where
  binding : ManagedInputBinding
  state : InputState
  imageId : Option String
  createClaimed : Bool
  upload : OperationRecord
  deriving DecidableEq

/-- A job that is live. -/
structure BackgroundJob extends Operation where
  managed : Option ManagedState
  inputReceipt : Option ManagedInputReceipt
  deriving DecidableEq

/-- What is left of a job. -/
structure BackgroundTombstone extends Tombstone where
  managed : Option ManagedState
  inputReceipt : Option ManagedInputReceipt
  deriving DecidableEq

/-- A row of the table of jobs. -/
inductive BackgroundRecord
  | live (job : BackgroundJob)
  | closed (t : BackgroundTombstone)
  deriving DecidableEq

def BackgroundRecord.id : BackgroundRecord → String
  | .live job => job.id
  | .closed t => t.id

def BackgroundRecord.admittedAt : BackgroundRecord → Int
  | .live job => job.admittedAt
  | .closed t => t.admittedAt

def BackgroundRecord.managed : BackgroundRecord → Option ManagedState
  | .live job => job.managed
  | .closed t => t.managed

def BackgroundRecord.inputReceipt : BackgroundRecord → Option ManagedInputReceipt
  | .live job => job.inputReceipt
  | .closed t => t.inputReceipt

def BackgroundRecord.replayUntil (record : BackgroundRecord) : Int := record.admittedAt + backgroundReplayMs

def BackgroundJob.close (job : BackgroundJob) (phase : ClosedPhase) : BackgroundTombstone :=
  { job.toOperation.close phase with managed := job.managed, inputReceipt := job.inputReceipt }

def BackgroundJob.setUpload (job : BackgroundJob) (receipt : ManagedInputReceipt)
    (upload : OperationRecord) : BackgroundJob :=
  { job with inputReceipt := some { receipt with upload := upload } }

/-! ## 5. Reading a row -/

def job (row : Option BackgroundRecord) : Answer BackgroundJob :=
  match row with
  | none => .error missing
  | some (.closed _) => .error closedJob
  | some (.live job) => .ok job

/-- `admitting`: the row of an id, within the minute of its admission. -/
def admitting (now : Int) (row : Option BackgroundRecord) : Answer BackgroundJob := do
  let job ← job row
  require (job.phase = .admitting && now < job.admittedAt + 60000) admissionExpired
  return job

def uploadJob (receipt : ManagedInputReceipt) : Answer Operation :=
  match receipt.upload with
  | .live op => .ok op
  | .closed _ => .error inputUnavailable

/-- `upload`: the upload nested in a row, while it is admitting. -/
def upload (row : Option BackgroundRecord) : Answer (BackgroundJob × ManagedInputReceipt × Operation) := do
  let job ← job row
  let receipt ← demand job.inputReceipt inputUnavailable
  let upload ← uploadJob receipt
  require (upload.phase = .admitting && upload.event.isNone) inputUnavailable
  return (job, receipt, upload)

/-! ## 6. What is done to a row -/

/-- A change of the operation that a call is about, the job or its upload. -/
def onOperation (now : Int) (uploading : Bool) (f : Operation → Answer Operation)
    (row : Option BackgroundRecord) : Answer (Option BackgroundRecord) := do
  if uploading then
    let (job, receipt, op) ← upload row
    let op' ← f op
    return some (.live (job.setUpload receipt (.live op')))
  else
    let job ← admitting now row
    let op' ← f job.toOperation
    return some (.live { job with toOperation := op' })

def beginReserve (now : Int) (index : Nat) (uploading : Bool) :
    Option BackgroundRecord → Answer (Option BackgroundRecord) :=
  onOperation now uploading fun op => op.beginReserve index

def reserved (now : Int) (index : Nat) (allowed uploading : Bool) :
    Option BackgroundRecord → Answer (Option BackgroundRecord) :=
  onOperation now uploading fun op => op.reserved index allowed

def dispatched (now : Int) (index : Nat) (uploading : Bool) :
    Option BackgroundRecord → Answer (Option BackgroundRecord) :=
  onOperation now uploading fun op => op.dispatched index

/-- `beginEgress`: the request may be sent upstream. -/
def beginEgress (now : Int) (row : Option BackgroundRecord) : Answer (Option BackgroundRecord) := do
  let job ← admitting now row
  require (job.managed.isNone || job.dispatchClaimed) invalid
  require (job.legs.all fun leg => leg.reserve = .accepted && leg.dispatched) invalid
  return some (.live { job with
    egress := true, phase := .observing, nextAttemptAt := now + 5000
    managed := job.managed.map fun m => { m with submission := .submissionUnknown } })

def beginDispatch (now : Int) (contentRef : Option String) (input : Bool)
    (row : Option BackgroundRecord) : Answer (Option BackgroundRecord) := do
  let job ← admitting now row
  require (job.inputReceipt.isNone || input) inputUnavailable
  require (!job.dispatchClaimed) dispatchClaimed
  return some (.live { job with dispatchClaimed := true, contentRef := contentRef })

def identity (now : Int) (responseId : String) (row : Option BackgroundRecord) :
    Answer (Option BackgroundRecord) := do
  let job ← job row
  if job.event.isSome || job.observeUntil ≤ now then return row
  require (job.phase = .observing) invalid
  require (!responseId.isEmpty && responseId.utf8ByteSize ≤ 256) invalid
  require (job.responseId.all fun known => known = responseId) identityConflict
  require (job.managed.isNone || isName 128 "_-" responseId) invalid
  return some (.live { job with
    managed := job.managed.map fun m =>
      { m with upstreamId := some responseId, submission := .bound }
    responseId := some responseId, nextAttemptAt := min job.nextAttemptAt (now + 5000) })

/-- `freeze` of a job, and of the upload nested in it. -/
def BackgroundJob.freeze (job : BackgroundJob) (outcome : AccountingOutcome) (now : Int) : BackgroundJob :=
  match job.accounting with
  | .event _ => job
  | .facts _ =>
    { job with
      toOperation := job.toOperation.freeze outcome now
      inputReceipt := job.inputReceipt.map fun receipt =>
        match receipt.upload with
        | .live op =>
          { receipt with
            upload := .live (op.freeze { outcome with billable := receipt.state ≠ .pending } now) }
        | .closed _ => receipt }

def freeze (now : Int) (outcome : AccountingOutcome) (uploading : Bool)
    (row : Option BackgroundRecord) : Answer (Option BackgroundRecord) := do
  if uploading then
    let record ← demand row missing
    let receipt ← demand record.inputReceipt missing
    match receipt.upload with
    | .closed _ => return row
    | .live op =>
      if op.event.isSome then return row
      let job ← job row
      return some (.live (job.setUpload receipt (.live (op.freeze outcome now))))
  else
    match row with
    | none => .error missing
    | some (.closed _) => return row
    | some (.live job) => return some (.live (job.freeze outcome now))

/-- `observeManaged`; `attempt` is the number of the collection that saw the status. -/
def observeManaged (now : Int) (upstreamId status : String) (statusCode : Int)
    (attempt : Option Nat) (loss : Option ManagedObservationLoss) (row : Option BackgroundRecord) :
    Answer (Option BackgroundRecord) := do
  match row with
  | some (.live job) =>
    if job.event.isSome || attempt.any (· ≠ job.attempts) || job.observeUntil ≤ now then return row
    let managed ← demand job.managed invalid
    require (managed.submission = .bound && job.responseId = some upstreamId) invalid
    require (["starting", "processing", "succeeded", "failed", "canceled", "aborted"].contains status) invalid
    require ((200 ≤ statusCode && statusCode < 300) || (status = "failed" && statusCode = 422)) invalid
    let outcome : AccountingOutcome := ⟨now, some statusCode,
      if status = "succeeded" then "success" else "provider_error", true, none, none⟩
    match loss with
    | some loss =>
      require (status = "processing") invalid
      let observed : BackgroundJob := { job with
        managed := some { managed with observationUnavailable := some loss }
        lastError := some .observationUnavailable }
      return some (.live (observed.freeze outcome now))
    | none =>
      let terminal : Option ManagedTerminal := if status = "succeeded" then some .succeeded
        else if status = "failed" then some .failed
        else if status = "canceled" then some .canceled
        else if status = "aborted" then some .aborted
        else none
      match terminal with
      | none => return row
      | some terminal =>
        let observed : BackgroundJob := { job with
          managed := some { managed with terminal := some terminal } }
        return some (.live (observed.freeze outcome now))
  | _ => return row

/-- `/^(?:video|audio|image)\/[a-z0-9.+-]{1,64}$/`. -/
def validMimeType (mimeType : String) : Bool :=
  ["video/", "audio/", "image/"].any fun kind =>
    mimeType.startsWith kind && (let rest := (mimeType.drop kind.length).toString
       1 ≤ rest.length && rest.length ≤ 64 &&
         rest.toList.all fun c => c.isDigit || c.isLower || ['.', '+', '-'].contains c)

/-- One file goes into the files that are known. -/
def mergeFile (files : List ManagedFileDescriptor) (file : ManagedFileDescriptor) :
    Answer (List ManagedFileDescriptor) := do
  require (isName 128 "_-" file.id && validMimeType file.mimeType) invalidFiles
  match files.find? fun known => known.id = file.id with
  | some known =>
    require (known.mimeType = file.mimeType) fileConflict
    return files
  | none =>
    require (files.length < 64) invalidFiles
    return files ++ [file]

/-- `bindManagedFiles`: it changes nothing but the files. -/
def bindManagedFiles (now : Int) (upstreamId : String) (files : List ManagedFileDescriptor)
    (row : Option BackgroundRecord) : Answer (Option BackgroundRecord) := do
  let record ← demand row filesUnavailable
  let managed ← demand record.managed filesUnavailable
  require (managed.submission = .bound && managed.upstreamId = some upstreamId &&
    managed.terminal = some .succeeded && managed.observationUnavailable.isNone &&
    now < record.replayUntil) filesUnavailable
  require (managed.files.length ≤ 64 && files.length ≤ 64) invalidFiles
  let known ← managed.files.foldlM mergeFile []
  let merged ← files.foldlM mergeFile known
  match record with
  | .live job => return some (.live { job with managed := some { managed with files := merged } })
  | .closed t => return some (.closed { t with managed := some { managed with files := merged } })

/-- Where an answer about the event comes from, and what it says. -/
inductive Acknowledgement
  | leg (index : Nat) (disposition : SettlementDisposition)
  | usage (disposition : UsageState)
  deriving DecidableEq

/-- `acknowledge`, of one operation: what is final stays. -/
def Operation.acknowledge (op : Operation) : Acknowledgement → Answer Operation
  | .usage disposition => do
    if op.usage.final then return op
    require (disposition ≠ .pending) invalid
    return { op with usage := disposition }
  | .leg index disposition => do
    let leg ← demand op.legs[index]? invalid
    require (disposition ≠ .pending) invalid
    if leg.settlement = .settled then return op
    let op' := op.setLeg index { leg with settlement := disposition }
    return { op' with settlements := op'.legs.map BackgroundLeg.settlement }

/-- The answer is final already, so that nothing is saved. -/
def Operation.repeated (op : Operation) : Acknowledgement → Bool
  | .usage _ => op.usage.final
  | .leg index _ => op.legs[index]?.any fun leg => leg.settlement = .settled

def ManagedInputReceipt.pendingUpload (receipt : ManagedInputReceipt) : Bool :=
  match receipt.upload with
  | .live _ => true
  | .closed _ => false

/-- A job is complete as soon as it is accounted and its upload is closed. -/
def BackgroundJob.compact (job : BackgroundJob) : BackgroundRecord :=
  if job.accounted && !job.inputReceipt.any ManagedInputReceipt.pendingUpload then
    .closed (job.close .complete)
  else .live job

def acknowledge (now : Int) (eventId : String) (ack : Acknowledgement) (uploading : Bool)
    (row : Option BackgroundRecord) : Answer (Option BackgroundRecord) := do
  let record ← demand row missing
  if uploading then
    let receipt ← demand record.inputReceipt missing
    match receipt.upload with
    | .closed _ => return row
    | .live op =>
      if op.event.all (fun event => event.id ≠ eventId) || op.replayUntil ≤ now then return row
      let op' ← op.acknowledge ack
      if op.repeated ack then return row
      let job ← job row
      if op'.accounted then
        let closed := job.setUpload receipt (.closed (op'.close .complete))
        if closed.event.isSome then return some closed.compact
        return some (.live closed)
      return some (.live (job.setUpload receipt (.live op')))
  else
    match record with
    | .closed _ => return row
    | .live job =>
      if job.event.all (fun event => event.id ≠ eventId) || job.replayUntil ≤ now then return row
      let op' ← job.toOperation.acknowledge ack
      if job.repeated ack then return row
      return some { job with toOperation := op' : BackgroundJob }.compact

/-- The part of `claim` that freezes a job: it was lost before its egress, or was observed too
    long. -/
def BackgroundJob.lapse (job : BackgroundJob) (now : Int) : BackgroundJob :=
  if job.phase = .admitting || (job.event.isNone && job.observeUntil ≤ now) then
    BackgroundJob.freeze { job with
        lastError := some (if job.phase = .admitting then .admissionLost else .observationExpired) }
      ⟨now, none, "provider_error", job.egress, none, none⟩ now
  else job

/-- `claim`, of one row: a receipt that is too old is expired. -/
def claim (now : Int) (manual : Bool) (row : Option BackgroundRecord) : Answer (Option BackgroundRecord) := do
  match row with
  | some (.live job) =>
    require (!manual || job.event.isSome) notFinal
    if job.replayUntil ≤ now then return some (.closed (job.close .expired))
    let job := job.lapse now
    if job.autoRetryUntil ≤ now && !manual then
      return some (.live { job with nextAttemptAt := job.autoRetryUntil })
    return some (.live { job with
      attempts := job.attempts + 1, nextAttemptAt := now + 30000 })
  | _ => return row

def retry (now : Int) (error : Option LastError) (attempt : Nat) (row : Option BackgroundRecord) :
    Answer (Option BackgroundRecord) :=
  match row with
  | some (.live job) =>
    if job.attempts ≠ attempt then .ok row
    else
      let backoff : Int := 5000 * 2 ^ min job.attempts 10
      let delay : Int := if job.event.isSome then min 3600000 backoff
        else if error.isSome then min 30000 backoff else 5000
      .ok (some (.live { job with lastError := error, nextAttemptAt := now + delay }))
  | _ => .ok row

/-! ## 7. Uploads -/

/-- Regions of the provider whose uploads are managed. -/
def pixVerseOrigin (region : String) : Option String :=
  if region = "international" then some "https://app-api.pixverse.ai"
  else if region = "cn" then some "https://app-api.pixverseai.cn"
  else none

def validateManagedInput (binding : ManagedInputBinding) : Bool :=
  let owner := binding.owner
  binding.inputProfile.all (fun profile => profile = "clawrouter.pixverse-image-input.v1") &&
    binding.version = "clawrouter.managed-input.v1" &&
    isHexAfter "http-continuations:" 64 binding.scope && isHexAfter "bg_" 32 binding.jobId &&
    binding.product = "pixverse.video" && binding.slot = "image" &&
    pixVerseOrigin binding.region = some binding.origin &&
    ["v6", "c1"].contains binding.model && isName 128 "._/-" binding.modelId &&
    1 ≤ binding.generation && Budget.isSafeInteger (some binding.generation) &&
    isHex 64 binding.digest && isHex 64 binding.createDigest &&
    1 ≤ binding.size && binding.size ≤ 8 * 1024 * 1024 &&
    ["image/png", "image/jpeg", "image/webp"].contains binding.mime &&
    Budget.isSafeInteger (some binding.expiresAt) &&
    owner.providerId = "pixverse" && isName 64 "_-" owner.endpointId &&
    owner.grantKey.any (isName 256 "_./:-") && owner.lineage.any (isName 128 "_-") &&
    isName 128 "_-" owner.policyGeneration && isHex 64 owner.routeSha256

/-- `inputReceipt`: the receipt of a row, if it is for this binding. -/
def inputReceipt (record : Option BackgroundRecord) (binding : ManagedInputBinding) :
    Answer ManagedInputReceipt := do
  let record ← demand record inputUnavailable
  let receipt ← demand record.inputReceipt inputUnavailable
  require (record.id = binding.jobId && validateManagedInput receipt.binding &&
    validateManagedInput binding && receipt.binding = binding) inputUnavailable
  return receipt

def assertManagedInputLive (now : Int) (binding : ManagedInputBinding) : Answer Unit :=
  require (validateManagedInput binding && now < binding.expiresAt) inputUnavailable

def validPixVerseId (value : String) : Bool :=
  1 ≤ value.length && value.length ≤ 16 && value.toList.all Char.isDigit &&
    value.toList.head? != some '0' && (value.toNat?.any fun n => n ≤ 9007199254740991)

def claimInputUpload (now : Int) (binding : ManagedInputBinding) (row : Option BackgroundRecord) :
    Answer (Option BackgroundRecord) := do
  let job ← admitting now row
  let receipt ← inputReceipt row binding
  assertManagedInputLive now binding
  let upload ← uploadJob receipt
  require (receipt.state = .pending && upload.event.isNone && job.event.isNone) inputUnavailable
  require (job.legs.all (fun leg => leg.reserve = .accepted) &&
    upload.legs.all (fun leg => leg.reserve = .accepted)) inputUnavailable
  return some (.live (job.setUpload { receipt with state := .dispatchUnknown }
    (.live { upload with egress := true })))

/-- `bindInputUpload`: the upload succeeded, and is accounted. -/
def bindInputUpload (now : Int) (binding : ManagedInputBinding) (imageId : String)
    (row : Option BackgroundRecord) : Answer (Option BackgroundRecord) := do
  let job ← admitting now row
  let receipt ← inputReceipt row binding
  assertManagedInputLive now receipt.binding
  require (receipt.state ≠ .pending && !receipt.createClaimed &&
    receipt.imageId.all (fun known => known = imageId)) inputUnavailable
  require (validPixVerseId imageId) inputUnavailable
  let bound := job.setUpload { receipt with imageId := some imageId, state := .bound } receipt.upload
  freeze now ⟨now, some 200, "success", true, none, none⟩ true (some (.live bound))

/-- `claimInputCreate`: the generation that uses the upload may be sent. -/
def claimInputCreate (now : Int) (binding : ManagedInputBinding) (row : Option BackgroundRecord) :
    Answer (Option BackgroundRecord) := do
  let job ← admitting now row
  let receipt ← inputReceipt row binding
  assertManagedInputLive now binding
  require (receipt.state = .bound && receipt.imageId.any (fun id => !id.isEmpty) &&
    !receipt.createClaimed && !job.dispatchClaimed) inputUnavailable
  let claimed : BackgroundJob := { job with inputReceipt := some { receipt with createClaimed := true } }
  beginDispatch now none true (some (.live claimed))

end ClawRouter.Background
