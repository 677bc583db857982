/-
  Subject:   A credential owner, and everything that happens to it.

  The requests of one owner share a row, a tail and, for each flow, the exchange in flight. A request
  runs by itself between two awaits; there the world decides what it is answered: whether a write is
  kept and whether it is acknowledged, what the provider and the authority say, when the caller or a
  deadline aborts an exchange, and when the owner is restarted.

  * `BeginsOnce`, `PollsReserved`, `SettlesOnce`, `StaysClosed`, `InstallsWhole`: what a log may say.
-/
import ClawRouter.Devices.DeviceFlow

namespace ClawRouter.Devices

open Awaiting

/-! ## 1. The world -/

/-- The exchange that a request has started. -/
structure Exchange where
  kind : Kind
  attempt : DeviceAttempt
  aborted : Bool
  ended : Bool
  deriving DecidableEq

/-- A line of the log. -/
inductive Event
  /-- A row was put: by the settlement of this exchange, after this actor was last verified, over the
  row there was. -/
  | stored (settled : Option Nat) (actor : Option String) (old : Option Row) (new : Row) (clock : Int)
  /-- An exchange was started. -/
  | started (process : Nat) (kind : Kind) (attempt : DeviceAttempt) (clock : Int)
  deriving DecidableEq

/-- The owner of the row, with its log. -/
structure World where
  row : Option Row
  clock : Int
  /-- What `randomUUID` has answered. -/
  used : List String
  inFlight : Kind → Option Nat
  exchanges : Nat → Option Exchange
  /-- The request that holds the tail, and the actor it has verified. -/
  holder : Option Nat
  actor : Option String
  processes : Nat → Option (Program Unit)
  /-- The request that runs: it has not reached its next await. -/
  turn : Option Nat
  /-- What happened, newest first. -/
  log : List Event

/-- How a call is answered. -/
inductive Choice
  | fine
  /-- The call fails, and nothing was done. -/
  | throws (error : HttpError)
  /-- The call fails, though it was done. -/
  | lost (error : HttpError)
  /-- The call does nothing. -/
  | skips
  | actor (actor : String)
  | uuid (id : String)
  | reply (reply : ProviderReply)
  | row (row : Row)

namespace World

variable (w : World)

def inFlightOf (kind : Kind) : Option (String × Bool) :=
  (w.inFlight kind).bind fun q => (w.exchanges q).map fun e => (e.attempt.id, e.aborted)

def aborted (p : Nat) : Bool := (w.exchanges p).any Exchange.aborted

/-- `HttpOperation.stop`: an exchange that has not ended is aborted. -/
def abort (p : Nat) : World :=
  { w with
    exchanges := Function.update w.exchanges p ((w.exchanges p).map fun e =>
      if e.ended then e else { e with aborted := true }) }

def abortInFlight (kind : Kind) : World :=
  match w.inFlight kind with
  | some q => w.abort q
  | none => w

/-- The exchange leaves `inFlight`, where it still is in it. -/
def forget (p : Nat) (kind : Kind) : World :=
  { w with inFlight := if w.inFlight kind = some p then Function.update w.inFlight kind none else w.inFlight }

/-- `finally`; Copilot keeps an exchange until its input is retired. -/
def finish (p : Nat) : World :=
  match w.exchanges p with
  | some e =>
    let w := { w with exchanges := Function.update w.exchanges p (some { e with ended := true }) }
    if e.kind = .minimax then w.forget p e.kind else w
  | none => w

def store (settled : Option Nat) (row : Row) : World :=
  { w with row := some row, log := .stored settled w.actor w.row row w.clock :: w.log }

def start (p : Nat) (kind : Kind) (attempt : DeviceAttempt) : World :=
  { w with
    inFlight := Function.update w.inFlight kind (some p)
    exchanges := Function.update w.exchanges p (some ⟨kind, attempt, false, false⟩)
    log := .started p kind attempt w.clock :: w.log }

def abortError : HttpError := ⟨500, "aborted", "The operation was aborted"⟩

/-- What another operation makes of the row: the attempts are kept or removed, and no device
credential is acquired. -/
def rewritten (old : Option Row) (row : Row) : Bool :=
  (row.minimaxDeviceAttempt = none || row.minimaxDeviceAttempt = old.bind Row.minimaxDeviceAttempt) &&
  (row.copilotDeviceAttempt = none || row.copilotDeviceAttempt = old.bind Row.copilotDeviceAttempt) &&
  (row.credential = old.bind Row.credential ||
    match row.credential with
    | some (.device _) => false
    | _ => true)

/-! ## 2. Answers -/

/-- What a call of request `p` answers, and the world after it. -/
def answer (p : Nat) : (c : Call) → Choice → Option (Except HttpError (Reply c) × World)
  | .admin expected, .actor actor =>
    if expected.all (· = actor) then
      some (.ok actor, if w.holder = some p then { w with actor := some actor } else w)
    else none
  | .admin _, .throws e => some (.error e, w)
  | .order, .fine =>
    if w.holder = none then some (.ok (), { w with holder := some p, actor := none }) else none
  | .release, .fine => some (.ok (), { w with holder := none, actor := none })
  | .read, .fine => some (.ok w.row, w)
  | .read, .throws e => some (.error e, w)
  | .put _ settles row, .fine => some (.ok (), w.store (if settles then some p else none) row)
  | .put _ _ _, .throws e => some (.error e, w)
  | .ack, .fine => some (.ok (), w)
  | .ack, .throws e => some (.error e, w)
  | .publish row, .fine => some (.ok (), w.store none row)
  | .publish _, .skips => some (.ok (), w)
  | .publish _, .throws e => some (.error e, w)
  | .publish row, .lost e => some (.error e, w.store none row)
  | .remote, .fine => some (.ok (), w)
  | .remote, .throws e => some (.error e, w)
  | .capacity, .fine => some (.ok (), w)
  | .capacity, .throws e => some (.error e, w)
  | .rewrite, .row row => if rewritten w.row row then some (.ok (), w.store none row) else none
  | .rewrite, .skips => some (.ok (), w)
  | .rewrite, .throws e => some (.error e, w)
  | .now, .fine => some (.ok w.clock, w)
  | .uuid, .uuid id => if id ∈ w.used then none else some (.ok id, { w with used := id :: w.used })
  | .inFlight kind, .fine => some (.ok (w.inFlightOf kind), w)
  | .stopInFlight kind, .fine => some (.ok (), w.abortInFlight kind)
  | .start kind attempt _, .fine => some (.ok (), w.start p kind attempt)
  | .start _ _ _, .throws e => some (.error e, w)
  -- the operation is in flight, and its signal is aborted or `fetch` throws
  | .start kind attempt _, .lost e => some (.error e, w.start p kind attempt)
  | .wait, .reply reply => if w.aborted p then none else some (.ok reply, w)
  | .wait, .throws e => some (.error e, w.abort p)
  | .signal, .fine => some (if w.aborted p then .error abortError else .ok (), w)
  | .stop, .fine => some (.ok (), w.abort p)
  | .finish, .fine => some (.ok (), w.finish p)
  | _, _ => none

def resume (p : Nat) (program : Program Unit) : World :=
  match program with
  | .done _ => { w with processes := Function.update w.processes p none, turn := none }
  | .call c _ =>
    { w with
      processes := Function.update w.processes p (some program)
      turn := if c.awaited then none else some p }

end World

/-! ## 3. Acts -/

/-- What is asked of the owner. -/
inductive Request
  | device (kind : Kind) (key : String) (input : DeviceInput)
  | mutation (writes : Nat)
  | maintenance (writes : Nat)
  deriving DecidableEq

def Request.program (codecs : Kind → Codec) : Request → Program Unit
  | .device kind key input => (flowOf codecs kind).fetch key input
  | .mutation writes => mutate codecs writes
  | .maintenance writes => maintain writes

/-- A step of the owner. -/
inductive Act
  | arrive (p : Nat) (request : Request)
  | answer (p : Nat) (choice : Choice)
  /-- Time passes, between the turns of the requests; the clock may be set. -/
  | tick (clock : Int)
  /-- The caller goes away, or the deadline of the exchange has come. -/
  | abort (p : Nat)
  /-- The input of an exchange of Copilot that has ended is retired. -/
  | retire (p : Nat)
  /-- The owner is made anew over its storage. -/
  | restart

/-- A request is known by a number that no request and no exchange has had. -/
def step (codecs : Kind → Codec) (w : World) : Act → Option World
  | .arrive p request =>
    if w.turn.isNone && (w.processes p).isNone && (w.exchanges p).isNone then
      some (w.resume p (request.program codecs))
    else none
  | .answer p choice =>
    if w.turn.all (· = p) then
      match w.processes p with
      | some (.call c next) => (w.answer p c choice).map fun r => r.2.resume p (next r.1)
      | _ => none
    else none
  | .tick clock => if w.turn.isNone then some { w with clock := clock } else none
  | .abort p => some (w.abort p)
  | .retire p =>
    match w.exchanges p with
    | some e => if e.ended then some (w.forget p e.kind) else none
    | none => none
  | .restart =>
    some { w with
      inFlight := fun _ => none, holder := none, actor := none
      processes := fun _ => none, turn := none }

abbrev Run (codecs : Kind → Codec) : World → List Act → World → Prop :=
  Trace.Run fun w a w' => step codecs w a = some w'

/-- An owner that has not seen a device attempt. -/
structure Initial (w : World) : Prop where
  attempts : ∀ row kind, w.row = some row → row.attempts kind = none
  inFlight : ∀ kind, w.inFlight kind = none
  exchanges : ∀ p, w.exchanges p = none
  processes : ∀ p, w.processes p = none
  holder : w.holder = none
  turn : w.turn = none
  log : w.log = []

/-! ## 4. What a log may say -/

namespace Event

/-- The event starts an exchange of the attempt. -/
def Starts (kind : Kind) (id : String) : Event → Prop
  | .started _ k attempt _ => k = kind ∧ attempt.id = id
  | _ => False

/-- The event starts a begin exchange of the attempt. -/
def begins (kind : Kind) (id : String) : Event → Bool
  | .started _ k attempt _ => k = kind && attempt.id = id && attempt.phase = .beginUnknown
  | _ => false

/-- The event leaves the attempt in the row, in such a phase. -/
def Leaves (kind : Kind) (id : String) (phases : Phase → Prop) : Event → Prop
  | .stored _ _ _ new _ => ∃ attempt, new.attempts kind = some attempt ∧ attempt.id = id ∧ phases attempt.phase
  | _ => False

/-- The event is the settlement of the exchange of `p`. -/
def Settles (p : Nat) : Event → Prop
  | .stored settled _ _ _ _ => settled = some p
  | _ => False

/-- The event starts nothing for the attempt, and leaves it as it is. -/
def Spares (kind : Kind) (attempt : DeviceAttempt) : Event → Prop
  | .stored _ _ _ new _ => new.attempts kind = some attempt
  | .started _ k a _ => ¬(k = kind ∧ a.id = attempt.id)

end Event

/-- Each attempt starts at most one begin exchange. -/
def BeginsOnce (log : List Event) : Prop := ∀ kind id, log.countP (Event.begins kind id) ≤ 1

/-- The log ends with the write that made the attempt of a pending one, between its next poll and its
expiry; since then the attempt was left alone. -/
def Reserved (log : List Event) (kind : Kind) (attempt : DeviceAttempt) : Prop :=
  ∃ recent settled actor old new clock earlier pending,
    log = recent ++ .stored settled actor (some old) new clock :: earlier ∧
    old.attempts kind = some pending ∧ pending.phase = .pending ∧
    attempt = { pending with phase := .pollUnknown } ∧
    new.attempts kind = some attempt ∧ pending.nextPollAt ≤ clock ∧ clock < pending.expiresAt ∧
    ∀ e ∈ recent, e.Spares kind attempt

/-- An exchange begins an attempt or polls a reserved one, before it has expired. -/
def PollsReserved (log : List Event) : Prop :=
  ∀ later p kind attempt clock earlier,
    log = later ++ .started p kind attempt clock :: earlier → clock < attempt.expiresAt ∧
        (attempt.phase = .beginUnknown ∨ attempt.phase = .pollUnknown ∧ Reserved earlier kind attempt)

/-- Once an exchange has started, no earlier one of its attempt is settled. -/
def SettlesOnce (log : List Event) : Prop :=
  ∀ later p kind attempt clock earlier,
    log = later ++ .started p kind attempt clock :: earlier →
      ∀ q attempt' clock', .started q kind attempt' clock' ∈ earlier → attempt'.id = attempt.id →
        q ≠ p ∧ ∀ e ∈ later, ¬e.Settles q

/-- Once an attempt has ended, no exchange is started for it, and it never is open again. -/
def StaysClosed (log : List Event) : Prop :=
  ∀ later e earlier kind id,
    log = later ++ e :: earlier → e.Leaves kind id (·.unfinished = false) →
      ∀ e' ∈ later, ¬e'.Starts kind id ∧ ¬e'.Leaves kind id (·.unfinished = true)

/-- The write settles an exchange that polled the attempt of the row, and commits the attempt; the row
and the actor are those of the attempt. -/
def Commits (log : List Event) (settled : Option Nat) (actor : Option String) (old : Option Row)
    (new : Row) : Prop :=
  ∃ row p kind attempt clock committed, old = some row ∧ settled = some p ∧
    .started p kind attempt clock ∈ log ∧
    row.attempts kind = some attempt ∧ attempt.phase = .pollUnknown ∧
    new.attempts kind = some committed ∧ committed.id = attempt.id ∧ committed.phase = .committed ∧
    row.generation = attempt.generation ∧ row.lineage = attempt.lineage ∧
    row.grantKey = some attempt.key ∧ actor = some attempt.actor

/-- A credential is installed only by a write that commits its attempt. -/
def InstallsWhole (log : List Event) : Prop :=
  ∀ later settled actor old new clock earlier credential,
    log = later ++ .stored settled actor old new clock :: earlier →
      new.credential = some (.device credential) → old.bind Row.credential ≠ new.credential →
        Commits earlier settled actor old new

end ClawRouter.Devices
