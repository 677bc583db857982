/-
  Subject:   Device authorization on a credential owner: `MiniMaxDeviceFlow`
             (src/worker/minimax-device-flow.ts), `CopilotDeviceFlow`
             (src/worker/copilot-device-flow.ts), and what the owner gives them
             (src/worker/grant-credentials.ts).

  An administrator begins an attempt, approves it in a browser, and polls for the credential. The
  attempt lives in the owner's row. Reserving an exchange with the provider and settling it each
  hold the owner's tail; the exchange itself does not.

  * `mutate`, `maintain`: the other operations that hold the tail.
-/
import ClawRouter.Grants.Attachment
import ClawRouter.Lib.Await

namespace ClawRouter.Credentials

open Fallible

def generationExhausted : HttpError :=
  ⟨409, "grant_generation_exhausted", "account generation is exhausted; operator recovery is required"⟩

def nextCredentialGeneration (generation : Int) : Answer Int := do
  require (Budget.isSafeInteger (some generation) && 0 ≤ generation &&
    generation < Js.maxSafeInteger - 1) generationExhausted
  return generation + 1

end ClawRouter.Credentials

namespace ClawRouter.Devices

open Fallible Awaiting Credentials

/-! ## 1. Attempts and rows -/

/-- The two flows. -/
inductive Kind
  | minimax
  | copilot
  deriving DecidableEq

/-- How far an attempt is. -/
inductive Phase
  | beginUnknown
  | pollUnknown
  | pending
  | committed
  | cancelled
  | expired
  | denied
  | unknown
  | failed
  deriving DecidableEq

namespace Phase

def active : Phase → Bool
  | .beginUnknown | .pollUnknown => true
  | _ => false

def cancellable : Phase → Bool
  | .pending | .beginUnknown | .pollUnknown | .unknown => true
  | _ => false

/-- The phases in which no other attempt may begin. -/
def unfinished : Phase → Bool
  | .pending | .beginUnknown | .pollUnknown => true
  | _ => false

def status : Phase → String
  | .beginUnknown => "starting"
  | .pollUnknown => "polling"
  | .pending => "pending"
  | .committed => "committed"
  | .cancelled => "cancelled"
  | .expired => "expired"
  | .denied => "denied"
  | .unknown => "unknown"
  | .failed => "failed"

end Phase

/-- What the provider authorized; `expires` is a time for MiniMax, a duration for Copilot. -/
structure Authorization where
  userCode : String
  verificationUrl : String
  intervalMs : Int
  expires : Int
  deriving DecidableEq

/-- `MiniMaxDeviceAttempt`, `CopilotDeviceAttempt`. The region is the GitHub domain for Copilot; the
owner binding is that of the session for MiniMax. -/
structure DeviceAttempt where
  id : String
  intentId : String
  actor : String
  key : String
  region : String
  generation : Int
  lineage : Option String
  ownerBinding : Option String
  phase : Phase
  expiresAt : Int
  nextPollAt : Int
  intervalMs : Int
  authorization : Option Authorization
  deriving DecidableEq

/-- `MiniMaxOAuthCredential`, `CopilotDeviceCredential`. -/
structure DeviceCredential where
  region : String
  ownerBinding : String
  accessToken : String
  deriving DecidableEq

/-- The secret of a row: one that a device flow installed, or any other. -/
inductive RowCredential
  | device (credential : DeviceCredential)
  | other (text : String)
  deriving DecidableEq

/-- What the device flows read and write of a `CredentialRecord`. -/
structure Row where
  generation : Int
  lineage : Option String
  grantKey : Option String
  providerId : Option String
  enabled : Bool
  revoked : Bool
  canonical : Bool
  /-- `refreshAttempt`: a refresh is under way, or its outcome is unknown. -/
  refreshing : Bool
  minimaxDeviceAttempt : Option DeviceAttempt
  copilotDeviceAttempt : Option DeviceAttempt
  credential : Option RowCredential
  deriving DecidableEq

namespace Row

def attempts (row : Row) : Kind → Option DeviceAttempt
  | .minimax => row.minimaxDeviceAttempt
  | .copilot => row.copilotDeviceAttempt

def withAttempt (row : Row) (kind : Kind) (attempt : DeviceAttempt) : Row :=
  match kind with
  | .minimax => { row with minimaxDeviceAttempt := some attempt }
  | .copilot => { row with copilotDeviceAttempt := some attempt }

@[simp] theorem withAttempt_attempts (row : Row) (kind : Kind) (attempt : DeviceAttempt) :
    (row.withAttempt kind attempt).attempts kind = some attempt := by
  cases kind <;> rfl

theorem withAttempt_attempts_of_ne (row : Row) {kind k : Kind} (attempt : DeviceAttempt) (h : k ≠ kind) :
    (row.withAttempt kind attempt).attempts k = row.attempts k := by
  cases kind <;> cases k <;> first | rfl | exact absurd rfl h

@[simp] theorem withAttempt_credential (row : Row) (kind : Kind) (attempt : DeviceAttempt) :
    (row.withAttempt kind attempt).credential = row.credential := by
  cases kind <;> rfl

end Row

/-! ## 2. Requests, views and the provider's messages -/

/-- What a flow is begun with. -/
structure BeginInput where
  region : String
  intentId : String
  expectedGeneration : Int
  replacesAttemptId : Option String
  deriving DecidableEq

/-- What is asked of an attempt. -/
inductive Operation
  | status
  | poll
  | cancel
  deriving DecidableEq

/-- `MiniMaxDeviceInput`, `CopilotDeviceInput`. -/
inductive DeviceInput
  | begin (input : BeginInput)
  | use (operation : Operation) (attemptId : String)
  deriving DecidableEq

/-- What the client sees of an attempt. -/
structure View where
  attemptId : String
  status : String
  expiresAt : Int
  nextPollAt : Option Int
  authorization : Option (String × String)
  deriving DecidableEq

def view (attempt : DeviceAttempt) : View where
  attemptId :=
  attempt.id
  status := attempt.phase.status
  expiresAt := attempt.expiresAt
  nextPollAt := if attempt.phase = .pending then some attempt.nextPollAt else none
  authorization := if attempt.phase = .pending then
      attempt.authorization.map fun a => (a.userCode, a.verificationUrl)
    else none

/-- The text and the status of a provider's reply. -/
structure ProviderReply where
  text : String
  status : Nat
  deriving DecidableEq

inductive Refusal
  | denied
  | expired
  | other
  deriving DecidableEq

/-- What the provider answers to a begin. -/
inductive BeginResult
  | authorization (authorization : Authorization)
  | refused
  deriving DecidableEq

/-- What the provider answers to a poll. -/
inductive PollResult
  | pending (intervalMs : Int)
  | success (credential : DeviceCredential)
  | refused (refusal : Refusal)
  deriving DecidableEq

inductive Result
  | begun (result : BeginResult)
  | polled (result : PollResult)
  deriving DecidableEq

/-- How the messages of a provider are written and read, and the binding of a session. -/
structure Codec where
  ownerBinding : (key : String) → (lineage : Option String) → (generation : Int) → (region : String) → String
  prepareBegin : DeviceAttempt → Answer Unit
  preparePoll : DeviceAttempt → (now : Int) → Answer Unit
  decodeBegin : DeviceAttempt → ProviderReply → (now : Int) → Answer BeginResult
  decodePoll : DeviceAttempt → ProviderReply → (now : Int) → Answer PollResult

/-! ## 3. Calls -/

/-- What a request waits for and what it asks of the world. A request starts one exchange at most, so
its exchange needs no name. -/
inductive Call
  /-- `miniMaxDeviceAdmin`, `copilotDeviceAdmin`: the actor of the request. -/
  | admin (expected : Option String)
  /-- The owner's tail: taken, and left. -/
  | order
  | release
  | read
  /-- `storage.put`; a settlement says so. -/
  | put (kind : Kind) (settles : Bool) (row : Row)
  /-- The promise of the last `put`. -/
  | ack
  /-- `schedule` and `publishProjection`, which may put the row again. -/
  | publish (row : Row)
  /-- Calls of the authority: pools, attachments, ownership of a refresh token, legacy metadata. -/
  | remote
  /-- `lease.grow`. -/
  | capacity
  /-- A write of an operation that is not a device flow's. -/
  | rewrite
  | now
  | uuid
  /-- `this.inFlight`: its attempt, and whether its signal is aborted. -/
  | inFlight (kind : Kind)
  | stopInFlight (kind : Kind)
  /-- `start` from where the operation is made and `inFlight` is set: the `fetch`. -/
  | start (kind : Kind) (attempt : DeviceAttempt) (startedAt : Int)
  | wait
  /-- `operation.signal.throwIfAborted()`. -/
  | signal
  | stop
  /-- `finally`: the operation is complete. -/
  | finish

@[reducible] def Reply : Call → Type
  | .admin _ => String
  | .read => Option Row
  | .now => Int
  | .uuid => String
  | .inFlight _ => Option (String × Bool)
  | .wait => ProviderReply
  | _ => Unit

/-- The calls that an `await` stands before: other work may run before they are answered. -/
def Call.awaited : Call → Bool
  | .admin _ | .order | .read | .ack | .publish _ | .remote | .rewrite | .wait => true
  | _ => false

abbrev Program (α : Type) := Await Call Reply HttpError α

def ask (c : Call) : Program (Reply c) := Await.ask c

/-- The administrator is still the one the request began with. -/
def verify (actor : String) : Program Unit := do
  let _ ← ask (.admin (some actor))

def save (kind : Kind) (settles : Bool) (row : Row) : Program Unit := do
  ask (.put kind settles row)
  ask .ack

def ordered {α : Type} (run : Program α) : Program α := do
  ask .order
  run.always fun _ => ask .release

def expect {α : Type} (value : Option α) (error : HttpError) : Program α := Await.lift (demand value error)

def check (condition : Bool) (error : HttpError) : Program Unit := Await.lift (require condition error)

def provided (condition : Bool) (run : Program Unit) : Program Unit := if condition then run else pure ()

/-! ## 4. The flow -/

/-- What the two flows differ in. -/
structure Flow where
  kind : Kind
  codec : Codec
  providerId : String
  conflict : HttpError
  pollEarly : HttpError
  ownerUnavailable : HttpError
  deviceExpired : HttpError
  /-- How long a new attempt lives. -/
  ttl : Int
  /-- Room for the provider's reply is taken first. -/
  reserves : Bool
  /-- An account attempt of the old row is invalidated first. -/
  invalidatesAccount : Bool
  /-- The administrator is verified again before a new attempt is stored. -/
  rechecks : Bool
  /-- The owner is asserted before an attempt is given up. -/
  asserts : Bool
  /-- A credential makes a row of its own: its refresh token is claimed, and its lineage is new. -/
  claims : Bool
  /-- What `terminal` removes. -/
  clear : DeviceAttempt → DeviceAttempt
  /-- A pending attempt, once authorized and once more. -/
  opened : DeviceAttempt → Authorization → (startedAt now : Int) → Answer DeviceAttempt
  again : DeviceAttempt → (intervalMs now : Int) → Answer DeviceAttempt
  /-- The phase after a refusal. -/
  refused : Refusal → Phase
  binds : DeviceAttempt → DeviceCredential → Bool
  /-- The row that carries a credential, and its attempt. -/
  installed : Row → DeviceCredential → (generation : Int) → (lineage : String) → Row
  committed : DeviceAttempt → (generation : Int) → (lineage : String) → DeviceAttempt

namespace Flow

variable (flow : Flow)

def terminal (attempt : DeviceAttempt) (phase : Phase) : DeviceAttempt :=
  { flow.clear attempt with phase := phase }

/-- The row is the one the attempt was begun for. -/
def owns (row : Row) (attempt : DeviceAttempt) : Bool :=
  row.generation = attempt.generation && row.lineage = attempt.lineage &&
    row.grantKey = some attempt.key && row.providerId = some flow.providerId && row.enabled &&
    !row.revoked

def assertOwner (row : Row) (attempt : DeviceAttempt) : Program Unit :=
  check (flow.owns row attempt) flow.conflict

def invalidate : Program Unit := do
  ask (.stopInFlight flow.kind)
  let current ← ask .read
  match current.bind fun row => (row.attempts flow.kind).map fun attempt => (row, attempt) with
  | some (row, attempt) =>
    if attempt.phase.cancellable then
      save flow.kind false (row.withAttempt flow.kind (flow.terminal attempt .cancelled))
    else pure ()
  | none => pure ()

/-- The attempt is given a phase for good, and seen. -/
def conclude (settles : Bool) (row : Row) (attempt : DeviceAttempt) (phase : Phase) : Program View := do
  save flow.kind settles (row.withAttempt flow.kind (flow.terminal attempt phase))
  return view (flow.terminal attempt phase)

def recover (row : Row) (attempt : DeviceAttempt) : Program View := do
  flow.assertOwner row attempt
  if attempt.phase.active then do
    let inFlight ← ask (.inFlight flow.kind)
    if inFlight = some (attempt.id, false) then return view attempt
    else flow.conclude false row attempt .unknown
  else if attempt.phase = .pending then do
    let now ← ask .now
    if attempt.expiresAt ≤ now then flow.conclude false row attempt .expired
    else return view attempt
  else if attempt.phase = .committed then do
    ask (.publish row)
    return view attempt
  else return view attempt

/-- What `reserve` comes to: a view, or an exchange that was started for an attempt. -/
inductive Reservation
  | view (view : View)
  | started (attempt : DeviceAttempt) (startedAt : Int)

def start (attempt : DeviceAttempt) : Program Reservation := do
  let startedAt ← ask .now
  check (startedAt < attempt.expiresAt) flow.conflict
  ask (.start flow.kind attempt startedAt)
  return .started attempt startedAt

/-- The row is the owner's own, or there is none and no legacy metadata either. -/
def assertOriginal (key : String) : Option Row → Program Unit
  | some row =>
    check (row.canonical && row.grantKey = some key && row.providerId = some flow.providerId &&
      !row.refreshing) flow.ownerUnavailable
  | none => ask .remote

/-- `beginMiniMaxDevice`, `beginCopilotDevice`. An attachment of another generation is one of the
throws of the authority. -/
def beginDevice (key : String) (input : BeginInput) (current : Option Row) : Program Row := do
  flow.assertOriginal key current
  check ((current.map Row.generation).getD 0 = input.expectedGeneration) flow.conflict
  provided flow.invalidatesAccount (ask .rewrite)
  ask .remote
  let generation ← Await.lift (nextCredentialGeneration ((current.map Row.generation).getD 0))
  let lineage ← ask .uuid
  ask .remote
  return {
    generation, lineage := some lineage, grantKey := some key, providerId := some flow.providerId
    enabled := true, revoked := false, canonical := true, refreshing := false
    minimaxDeviceAttempt := none, copilotDeviceAttempt := none, credential := none }

def newAttempt (key : String) (input : BeginInput) (actor id : String) (row : Row) (now : Int) :
    DeviceAttempt where
  id :=
  id
  intentId := input.intentId
  actor := actor
  key := key
  region := input.region
  generation := row.generation
  lineage := row.lineage
  ownerBinding := some (flow.codec.ownerBinding key row.lineage row.generation input.region)
  phase := .beginUnknown
  expiresAt := now + flow.ttl
  nextPollAt := 0
  intervalMs := 5000
  authorization := none

/-- The new attempt is stored before its exchange is started. -/
def open' (key : String) (input : BeginInput) (actor : String) (current : Option Row) :
    Program Reservation := do
  provided flow.reserves (ask .capacity)
  let row ← flow.beginDevice key input current
  provided flow.rechecks (verify actor)
  let id ← ask .uuid
  let now ← ask .now
  let attempt := flow.newAttempt key input actor id row now
  Await.lift (flow.codec.prepareBegin attempt)
  let row := row.withAttempt flow.kind attempt
  save flow.kind false row
  ask (.publish row)
  verify actor
  flow.start attempt

def begin (key : String) (input : BeginInput) (actor : String) (current : Option Row) :
    Program Reservation := do
  match current.bind fun row => (row.attempts flow.kind).map fun attempt => (row, attempt) with
  | some (row, attempt) =>
    if attempt.intentId = input.intentId then do
      check (attempt.actor = actor && attempt.key = key && attempt.region = input.region) flow.conflict
      return .view (← flow.recover row attempt)
    else do
      check (input.replacesAttemptId = some attempt.id && attempt.actor = actor &&
        !attempt.phase.unfinished &&
        !(attempt.phase = .unknown && row.generation = attempt.generation)) flow.conflict
      flow.open' key input actor current
  | none => do
    check input.replacesAttemptId.isNone flow.conflict
    flow.open' key input actor current

/-- `poll` of a pending attempt, in the owner's tail. -/
def poll (row : Row) (attempt : DeviceAttempt) (actor : String) : Program Reservation := do
  let now ← ask .now
  if attempt.expiresAt ≤ now then return .view (← flow.conclude false row attempt .expired)
  else do
    let now ← ask .now
    check (attempt.nextPollAt ≤ now) flow.pollEarly
    provided flow.reserves (ask .capacity)
    Await.lift (flow.codec.preparePoll attempt now)
    let attempt := { attempt with phase := .pollUnknown }
    save flow.kind false (row.withAttempt flow.kind attempt)
    verify actor
    flow.start attempt

/-- `status`, `poll` and `cancel` of the stored attempt, in the owner's tail. -/
def use (key : String) (operation : Operation) (attemptId actor : String) (row : Row)
    (attempt : DeviceAttempt) : Program Reservation := do
  check (attemptId = attempt.id && actor = attempt.actor && key = attempt.key) flow.conflict
  flow.assertOwner row attempt
  if operation = .cancel then
    if attempt.phase = .committed then return .view (view attempt)
    else do
      ask (.stopInFlight flow.kind)
      return .view (← flow.conclude false row attempt .cancelled)
  else if operation = .status || attempt.phase ≠ .pending then
    return .view (← flow.recover row attempt)
  else flow.poll row attempt actor

/-- What a request does in the owner's tail before any exchange. -/
def reserve (key : String) (input : DeviceInput) (actor : String) : Program Reservation := do
  verify actor
  let current ← ask .read
  match input with
  | .begin input => flow.begin key input actor current
  | .use operation attemptId => do
    let row ← expect current flow.conflict
    let attempt ← expect (row.attempts flow.kind) flow.conflict
    flow.use key operation attemptId actor row attempt

/-- The lineage of the row that carries the credential. -/
def lineageOf (current : Row) : Program String :=
  if flow.claims then ask .uuid else pure (current.lineage.getD "")

/-- `installMiniMaxDevice`, `installCopilotDevice`: the credential and the end of the attempt are one
row. -/
def install (current : Row) (attempt : DeviceAttempt) (credential : DeviceCredential)
    (actor : String) : Program View := do
  check (flow.binds attempt credential) flow.conflict
  provided flow.claims (ask .remote)
  let generation ← Await.lift (nextCredentialGeneration current.generation)
  let lineage ← flow.lineageOf current
  ask .remote
  ask .remote
  verify actor
  ask .signal
  let now ← ask .now
  check (now < attempt.expiresAt) flow.deviceExpired
  let committed := flow.committed attempt generation lineage
  let row := (flow.installed current credential generation lineage).withAttempt flow.kind committed
  save flow.kind true row
  ask (.publish row)
  return view committed

def keep (current : Row) (attempt : DeviceAttempt) : Program View := do
  save flow.kind true (current.withAttempt flow.kind attempt)
  return view attempt

def apply (current : Row) (present attempt : DeviceAttempt) (startedAt : Int) (actor : String) :
    Result → Program View
  | .begun (.authorization authorization) => do
    let now ← ask .now
    flow.keep current (← Await.lift (flow.opened attempt authorization startedAt now))
  | .begun .refused => flow.conclude true current attempt (flow.refused .other)
  | .polled (.pending intervalMs) => do
    let now ← ask .now
    flow.keep current (← Await.lift (flow.again attempt intervalMs now))
  | .polled (.success credential) => flow.install current present credential actor
  | .polled (.refused refusal) => flow.conclude true current attempt (flow.refused refusal)

/-- What an exchange comes to, in the owner's tail. -/
def settle (attempt : DeviceAttempt) (startedAt : Int) (actor : String) (result : Result) : Program View := do
  verify actor
  ask .signal
  let current ← expect (← ask .read) flow.conflict
  let present ← expect (current.attempts flow.kind) flow.conflict
  check (present.id = attempt.id && present.phase = attempt.phase) flow.conflict
  flow.assertOwner current attempt
  let now ← ask .now
  if attempt.expiresAt ≤ now then flow.conclude true current attempt .expired
  else flow.apply current present attempt startedAt actor result

/-- The `catch` of an exchange: an attempt that is still active is given up. A commit that was not
acknowledged is read, and left. -/
def giveUp (attempt : DeviceAttempt) (actor : String) : Program View := do
  let current ← expect (← ask .read) flow.conflict
  let present ← expect (current.attempts flow.kind) flow.conflict
  check (present.id = attempt.id) flow.conflict
  check (!flow.asserts || flow.owns current present) flow.conflict
  if present.phase.active then do
    let seen ← flow.conclude false current present .unknown
    verify actor
    return seen
  else do
    verify actor
    return view present

/-- What the provider's reply says, by the phase of the attempt it was asked for. -/
def decode (attempt : DeviceAttempt) (reply : ProviderReply) (now : Int) : Answer Result :=
  if attempt.phase = .beginUnknown then do return .begun (← flow.codec.decodeBegin attempt reply now)
  else do return .polled (← flow.codec.decodePoll attempt reply now)

/-- The exchange is waited for, outside the tail, and settled in it. -/
def conduct (attempt : DeviceAttempt) (startedAt : Int) (actor : String) : Program View := do
  let reply ← ask .wait
  let now ← ask .now
  let result ← Await.lift (flow.decode attempt reply now)
  ordered (flow.settle attempt startedAt actor result)

def exchange (attempt : DeviceAttempt) (startedAt : Int) (actor : String) : Program View :=
  ((flow.conduct attempt startedAt actor).attempt fun _ => do
    ask .stop
    ordered (flow.giveUp attempt actor)).always fun _ => ask .finish

def fetch (key : String) (input : DeviceInput) : Program Unit := do
  let actor ← ask (.admin none)
  match ← ordered (flow.reserve key input actor) with
  | .view _ => return
  | .started attempt startedAt => do
    let _ ← flow.exchange attempt startedAt actor

end Flow

/-! ## 5. The two flows -/

def minimax (codec : Codec) : Flow where
  kind :=
  .minimax
  codec := codec
  providerId := "minimax"
  conflict := ⟨409, "minimax_device_conflict", "Device attempt or credential generation changed"⟩
  pollEarly := ⟨409, "minimax_device_poll_early", "Device poll interval has not elapsed"⟩
  ownerUnavailable := ⟨409, "minimax_device_owner_unavailable", "Original credential owner is unavailable"⟩
  deviceExpired := ⟨409, "minimax_device_expired", "Device attempt expired"⟩
  ttl := 15 * 60000
  reserves := false
  invalidatesAccount := false
  rechecks := true
  asserts := false
  claims := true
  clear attempt := { attempt with ownerBinding := none, authorization := none }
  opened attempt authorization _ now := .ok { attempt with
      phase := .pending
      authorization := some authorization
      expiresAt := min attempt.expiresAt authorization.expires
      nextPollAt := now + max 2000 authorization.intervalMs }
  again attempt _ now := do
    let authorization ← demand attempt.authorization
      ⟨503, "minimax_device_unavailable", "MiniMax device operation unavailable"⟩
    return { attempt with phase := .pending, nextPollAt := now + max 2000 authorization.intervalMs }
  refused _ := .unknown
  binds attempt credential :=
    credential.region = attempt.region && some credential.ownerBinding = attempt.ownerBinding
  -- `credentialRecord`: a row of its own
  installed current credential generation lineage := {
    generation, lineage := some lineage, grantKey := current.grantKey, providerId := some "minimax"
    enabled := true, revoked := false, canonical := true, refreshing := false
    minimaxDeviceAttempt := none, copilotDeviceAttempt := none
    credential := some (.device credential) }
  committed attempt generation lineage := { attempt with
    phase := .committed, generation := generation, lineage := some lineage
    ownerBinding := none, authorization := none }

def copilotConflict : HttpError :=
  ⟨409, "copilot_device_conflict", "Device attempt or credential owner changed"⟩

def copilot (codec : Codec) : Flow where
  kind :=
  .copilot
  codec := codec
  providerId := "github-copilot"
  conflict := copilotConflict
  pollEarly := ⟨409, "copilot_device_poll_early", "Device poll interval has not elapsed"⟩
  ownerUnavailable :=
    ⟨409, "copilot_device_owner_unavailable", "Original credential owner is unavailable"⟩
  deviceExpired := ⟨409, "copilot_device_expired", "Device attempt expired"⟩
  ttl := 30000
  reserves := true
  invalidatesAccount := true
  rechecks := false
  asserts := true
  claims := false
  clear attempt := { attempt with authorization := none }
  opened attempt authorization startedAt now :=
    let expiresAt := startedAt + authorization.expires
    let nextPollAt := now + authorization.intervalMs
    if Budget.isSafeInteger (some expiresAt) && Budget.isSafeInteger (some nextPollAt) && now < expiresAt then
      .ok { attempt with
        phase := .pending
        authorization := some authorization
        expiresAt := expiresAt
        nextPollAt := nextPollAt
        intervalMs := authorization.intervalMs }
    else .error copilotConflict
  again attempt intervalMs now :=
    let nextPollAt := now + intervalMs
    if Budget.isSafeInteger (some nextPollAt) then
      .ok { attempt with phase := .pending, intervalMs := intervalMs, nextPollAt := nextPollAt }
    else .error copilotConflict
  refused
    | .denied => .denied
    | .expired => .expired
    | .other => .failed
  binds attempt credential :=
    credential.region = attempt.region && some credential.ownerBinding = attempt.ownerBinding &&
      credential.accessToken ≠ "" && credential.accessToken.length ≤ 8192 &&
      attempt.phase = .pollUnknown
  -- the row as it is, with the token in a slot of its own
  installed current credential generation _ :=
    { current with generation := generation, credential := some (.device credential) }
  committed attempt generation _ := { attempt with
    phase := .committed, generation := generation, authorization := none }

def flowOf (codecs : Kind → Codec) : Kind → Flow
  | .minimax => minimax (codecs .minimax)
  | .copilot => copilot (codecs .copilot)

/-! ## 6. The other operations of the owner -/

/-- The writes of an operation that is not a device flow's. -/
def rewrites : Nat → Program Unit
  | 0 => pure ()
  | n + 1 => do
    ask .rewrite
    rewrites n

/-- A generic put or revoke: both flows are invalidated before anything else. -/
def mutate (codecs : Kind → Codec) (n : Nat) : Program Unit :=
  ordered (do
    (minimax (codecs .minimax)).invalidate
    (copilot (codecs .copilot)).invalidate
    rewrites n)

/-- Any other operation that holds the tail: materialization, maintenance, reconciliation, the account
and catalog flows. -/
def maintain (n : Nat) : Program Unit := ordered (rewrites n)

end ClawRouter.Devices
