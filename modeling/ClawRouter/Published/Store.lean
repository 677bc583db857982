/-
  Subject:   `BackgroundStore` (src/worker/background-store.ts) with both kinds of its rows: background
             jobs and the receipts of published inputs, in one table.

  Every statement is modelled with the condition it has in the source, over all rows: a lookup of a job
  filters by `phase NOT LIKE 'asset_%'`, eviction by the two closed phases, the alarm by the due time,
  which a receipt has not. What is done to the row of a job is that of `ClawRouter.Background`.

  * `exec`: all of them, as one function of the clock and the table.
-/
import ClawRouter.Background.Store
import ClawRouter.Published.Receipt

namespace ClawRouter.Published

open Fallible Keyed Background

/-! ## 1. The table -/

/-- `text LIKE pattern`, without an escape character. -/
def like : List Char → List Char → Bool
  | [], s => s.isEmpty
  | '%' :: p, s => s.tails.any (like p)
  | '_' :: p, s =>
    match s with
    | [] => false
    | _ :: s => like p s
  | c :: p, s =>
    match s with
    | [] => false
    | d :: s => c.toLower == d.toLower && like p s

def livePhaseName : LivePhase → String
  | .admitting => "admitting"
  | .observing => "observing"
  | .outbox => "outbox"

def closedPhaseName : ClosedPhase → String
  | .complete => "complete"
  | .expired => "expired"

/-- A row of the table: a job, or an input. -/
inductive Row
  | job (record : BackgroundRecord)
  | asset (receipt : PublishedInputReceipt)

namespace Row

def id : Row → String
  | .job record => record.id
  | .asset receipt => receipt.binding.id

def phase : Row → String
  | .job (.live live) => livePhaseName live.phase
  | .job (.closed t) => closedPhaseName t.phase
  | .asset receipt => "asset_" ++ receipt.state.name

def admittedAt : Row → Int
  | .job record => record.admittedAt
  | .asset receipt => receipt.binding.allocatedAt

def nextAction : Row → Option Int
  | .job record => BackgroundStore.nextAction record
  | .asset _ => none

def isAsset (row : Row) : Bool := like "asset_%".toList row.phase.toList

def managed : Row → Option ManagedState
  | .job record => record.managed
  | .asset _ => none

def replayUntil : Row → Option Int
  | .job record => some record.replayUntil
  | .asset _ => none

/-- `json_extract(job_json, '$.binding.idempotencyDigest')`. -/
def idempotencyDigest : Row → Option String
  | .job _ => none
  | .asset receipt => some receipt.binding.idempotencyDigest

def record? : Row → Option BackgroundRecord
  | .job record => some record
  | .asset _ => none

def receipt? : Row → Option PublishedInputReceipt
  | .job _ => none
  | .asset receipt => some receipt

end Row

/-- The table that jobs and inputs share. -/
structure SharedStore where
  rows : Table Row.id

namespace SharedStore

def empty : SharedStore := ⟨Table.empty⟩

/-! ## 2. Receipts -/

section Receipts

variable (p : Platform) (now : Int) (s : SharedStore)

/-- `savePublishedInput`; `fits` tells whether the row is small enough. -/
def savePublishedInput (fits : Bool) (receipt : PublishedInputReceipt) :
    Answer (SharedStore × PublishedInputReceipt) := do
  require (validatePublishedInput p receipt.binding) publishedInputUnavailable
  require fits publishedInputUnavailable
  return (⟨s.rows.upsert (.asset receipt)⟩, receipt)

def allocatePublishedInput (fits : Bool) (binding : PublishedInputBinding) :
    Answer (SharedStore × PublishedInputReceipt) := do
  assertPublishedInputLive p now binding
  let prior := s.rows.rows.find? fun row =>
    row.isAsset && row.idempotencyDigest == some binding.idempotencyDigest
  match prior.bind Row.receipt? with
  | some receipt =>
    require (← samePublishedInput p receipt.binding binding) publishedInputUnavailable
    return (s, receipt)
  | none =>
    require (s.rows.find? binding.id).isNone publishedInputUnavailable
    require (s.rows.rows.length < backgroundCapacity) capacity
    s.savePublishedInput p fits ⟨publishedInputVersion, binding, .pending, none, none⟩

def publishedInput (id : String) : Answer PublishedInputReceipt := do
  require (isHexAfter "asset_" 32 id) publishedInputUnavailable
  let row := (s.rows.find? id).filter Row.isAsset
  let receipt ← demand (row.bind Row.receipt?) publishedInputUnavailable
  assertPublishedInputLive p now receipt.binding
  return receipt

def claimPublishedInputPublication (fits : Bool) (binding : PublishedInputBinding) :
    Answer (SharedStore × PublishedInputReceipt) := do
  let receipt ← s.publishedInput p now binding.id
  require (← samePublishedInput p receipt.binding binding) publishedInputUnavailable
  require (receipt.state = .pending) publishedInputUnavailable
  s.savePublishedInput p fits { receipt with state := .publicationUnknown }

def bindPublishedInputObject (fits : Bool) (binding : PublishedInputBinding) (object : PublishedInputObject) :
    Answer (SharedStore × PublishedInputReceipt) := do
  let receipt ← s.publishedInput p now binding.id
  validatePublishedObject object binding
  require (← samePublishedInput p receipt.binding binding) publishedInputUnavailable
  if receipt.state = .published ∧ receipt.object = some object then return (s, receipt)
  require (receipt.state = .publicationUnknown && receipt.object.isNone) publishedInputUnavailable
  s.savePublishedInput p fits { receipt with object := some object, state := .published }

def claimPublishedInputForward (fits : Bool) (binding : PublishedInputBinding)
    (attempt : PublishedInputAttempt) :
    Answer (SharedStore × PublishedInputReceipt) := do
  let receipt ← s.publishedInput p now binding.id
  validatePublishedAttempt attempt
  require (← samePublishedInput p receipt.binding binding) publishedInputUnavailable
  require (receipt.state = .published && receipt.object.isSome && receipt.attempt.isNone)
    publishedInputUnavailable
  s.savePublishedInput p fits { receipt with attempt := some attempt, state := .forwardingUnknown }

end Receipts

/-! ## 3. Jobs -/

def selectJob (s : SharedStore) (id : String) : Option Row := (s.rows.find? id).filter fun row => !row.isAsset

def get (s : SharedStore) (id : String) : Option BackgroundRecord := (s.selectJob id).bind Row.record?

def selectList (s : SharedStore) (after : String) : List Row :=
  ((s.rows.rows.filter fun row => decide (after < row.id) && !row.isAsset).mergeSort fun a b =>
    a.id ≤ b.id).take 16

def save (s : SharedStore) (record : BackgroundRecord) : SharedStore := ⟨s.rows.upsert (.job record)⟩

def onRow (s : SharedStore) (id : String) (f : Option BackgroundRecord → Answer (Option BackgroundRecord)) :
    Answer SharedStore := do
  match ← f (s.get id) with
  | none => return s
  | some record => return s.save record

/-- The row is that of an idempotency key which may still be replayed. -/
def managedRow (now : Int) (managed : ManagedAdmission) (key : String) (row : Row) : Bool :=
  row.managed.any (fun m => m.admission.protocol = managed.protocol && m.admission.idempotencyKey = some key &&
    m.admission.providerId.getD "replicate" = managed.providerId.getD "replicate") &&
    row.replayUntil.any (now < ·)

def managedRetry (s : SharedStore) (now : Int) (managed : ManagedAdmission) (policyGeneration : String) :
    Answer (Option BackgroundRecord) := do
  require (validateManagedMetadata managed) invalid
  match managed.idempotencyKey with
  | none => return none
  | some key =>
    match (s.rows.rows.find? (managedRow now managed key)).bind Row.record? with
    | none => return none
    | some record =>
      require (record.managed.any fun m => m.admission.requestDigest = managed.requestDigest)
        idempotencyConflict
      require (record.managed.any fun m => m.policyGeneration = policyGeneration) ownerChanged
      return some record

def evictable (now : Int) (row : Row) : Bool :=
  (row.phase == "complete" || row.phase == "expired") && (row.managed.isNone || row.replayUntil.any (· ≤ now))

def oldest (s : SharedStore) (now : Int) : Option Row :=
  ((s.rows.rows.filter (evictable now)).mergeSort fun a b =>
    a.admittedAt < b.admittedAt || (a.admittedAt = b.admittedAt && a.id ≤ b.id)).head?

def active (row : Row) : Bool := row.phase == "admitting" || row.phase == "observing"

def admitsManaged (s : SharedStore) (now : Int) (input : BackgroundAdmission) : Answer Unit :=
  match input.managed with
  | none => .ok ()
  | some managed => do
    validateManagedAdmission input managed
    let existing ← s.managedRetry now managed input.owner.policyGeneration
    require existing.isNone managedExists

def admitJob (s : SharedStore) (now : Int) (input : BackgroundAdmission) : Answer SharedStore := do
  require (isHexAfter "bg_" 32 input.id && Budget.isSafeInteger (some input.admittedAt) &&
    (now - input.admittedAt).natAbs ≤ 60000) invalid
  s.admitsManaged now input
  require (s.get input.id).isNone admissionExists
  require ((s.rows.rows.filter active).length < backgroundActiveLimit) capacity
  let record := BackgroundRecord.live (newBackgroundJob input)
  if s.rows.rows.length < backgroundCapacity then return s.save record
  let evicted ← demand (s.oldest now) capacity
  return SharedStore.save ⟨s.rows.delete fun r => r.id == evicted.id⟩ record

def allocateInput (s : SharedStore) (now : Int) (binding : ManagedInputBinding)
    (admission : BackgroundAdmission)
    (upload : BackgroundStore.UploadAdmission) : Answer SharedStore := do
  BackgroundStore.validateInputAllocation now binding admission upload
  require (s.get admission.id).isNone inputUnavailable
  let admitted ← s.admitJob now admission
  return admitted.save (.live { newBackgroundJob admission with
    inputReceipt := some ⟨binding, .pending, none, false,
      .live (newOperation admission.id admission.admittedAt upload.facts upload.plan)⟩ })

def admitManaged (s : SharedStore) (now : Int) (input : BackgroundAdmission) :
    Answer (SharedStore × Bool) := do
  let managed ← demand input.managed invalid
  validateManagedAdmission input managed
  match ← s.managedRetry now managed input.owner.policyGeneration with
  | some _ => return (s, false)
  | none => return (← s.admitJob now input, true)

def selectDue (s : SharedStore) (now : Int) : List Row :=
  ((s.rows.rows.filter fun row => row.nextAction.any (· ≤ now)).mergeSort fun a b =>
    (a.nextAction.getD 0) ≤ (b.nextAction.getD 0)).take 4

def claimDue (s : SharedStore) (now : Int) : Answer SharedStore :=
  (s.selectDue now).foldlM (fun s row => s.onRow row.id (claim now false)) s

end SharedStore

/-! ## 4. Calls -/

/-- A mutation of an input. -/
inductive PublishedOp
  | allocate (binding : PublishedInputBinding)
  | read (id : String)
  | claimPublication (binding : PublishedInputBinding)
  | bindObject (binding : PublishedInputBinding) (object : PublishedInputObject)
  | claimForward (binding : PublishedInputBinding) (attempt : PublishedInputAttempt)

/-- A mutation of a job. -/
inductive JobOp
  | admitJob (input : BackgroundAdmission)
  | allocateInput (binding : ManagedInputBinding) (admission : BackgroundAdmission)
      (upload : BackgroundStore.UploadAdmission)
  | admitManaged (input : BackgroundAdmission)
  | row (id : String) (op : RowOp)
  | claimDue

/-- A mutation of the table. -/
inductive Op
  | published (op : PublishedOp)
  | job (op : JobOp)

variable (p : Platform)

def PublishedOp.run (now : Int) (fits : Bool) (s : SharedStore) :
    PublishedOp → Answer (SharedStore × PublishedInputReceipt)
  | .allocate binding => s.allocatePublishedInput p now fits binding
  | .read id => do return (s, ← s.publishedInput p now id)
  | .claimPublication binding => s.claimPublishedInputPublication p now fits binding
  | .bindObject binding object => s.bindPublishedInputObject p now fits binding object
  | .claimForward binding attempt => s.claimPublishedInputForward p now fits binding attempt

def JobOp.run (now : Int) (s : SharedStore) : JobOp → Answer SharedStore
  | .admitJob input => s.admitJob now input
  | .allocateInput binding admission upload => s.allocateInput now binding admission upload
  | .admitManaged input => do return (← s.admitManaged now input).1
  | .row id op => s.onRow id (op.run now)
  | .claimDue => s.claimDue now

/-- A call at a time; `fits` tells whether the row it saves is small enough. -/
structure Event where
  now : Int
  fits : Bool
  op : Op

/-- The table after a call, and the receipt it answers with, if it ends well and is about one. -/
def exec (s : SharedStore) (e : Event) : SharedStore × Answer (Option PublishedInputReceipt) :=
  match e.op with
  | .published op =>
    match op.run p e.now e.fits s with
    | .ok (s', receipt) => (s', .ok (some receipt))
    | .error error => (s, .error error)
  | .job op =>
    match op.run e.now s with
    | .ok s' => if e.fits then (s', .ok none) else (s, .error metadataTooLarge)
    | .error error => (s, .error error)

def run (s : SharedStore) (events : List Event) : SharedStore := events.foldl (fun s e => (exec p s e).1) s

end ClawRouter.Published
