/-
  Subject:   The delivery of one response body: `observeUsage` (src/worker/proxy-response.ts) with the
             reader it retires (src/worker/input-retirement.ts) and the operation it belongs to
             (src/worker/http-operation.ts).

  The body that goes down is a stream of its own. A pull of it reads one chunk upstream, has the
  chunk published and inspected, and enqueues it. `finish` settles the result and retires the
  reader; the pull, the abort of the operation and the cancellation of the stream all call it.

  * `Step`: what can happen next. Who reads, publishes, aborts and cancels is not modelled: their
    promises settle in any order, and a caller may interrupt between any two jobs.

  What the inspectors make of the bytes is not modelled: they may throw, and their promises may
  fail. A response without a body is answered at once and has no stream.
-/
import ClawRouter.Continuation.Witness
import ClawRouter.Lib.Trace

namespace ClawRouter.ObserveUsage

open Fallible Continuation

abbrev Chunk := List UInt8

/-! ## 1. The operation -/

/-- Why an operation is canceled. -/
inductive Cause
  | caller
  | deadline
  | upstream
  | publication
  | complete
  deriving DecidableEq

/-- How a delivery ended. -/
inductive Delivery
  | complete
  | canceled
  | failed
  deriving DecidableEq

/-- `HttpOperation`, of which the delivery reads how it ended; its signal is aborted where it ended
otherwise than by completion. -/
structure HttpOperation where
  ending : Option Cause
  deriving DecidableEq

namespace HttpOperation

def delivery (operation : HttpOperation) : Option Delivery :=
  match operation.ending with
  | none => none
  | some .complete => some .complete
  | some .caller => some .canceled
  | some _ => some .failed

def stop (operation : HttpOperation) (cause : Cause) : HttpOperation :=
  if operation.ending.isSome then operation else ⟨some cause⟩

end HttpOperation

/-! ## 2. The reader -/

/-- `inputRetirement`, with a count of the calls of the reader. -/
structure InputRetirement where
  pending : Bool
  stopped : Bool
  reads : Nat
  cancels : Nat
  /-- The cancellation of the reader has not settled. -/
  cancelling : Bool
  deriving DecidableEq

def InputRetirement.retire (input : InputRetirement) (eof : Bool) : InputRetirement :=
  if input.stopped then input
  else if eof then { input with stopped := true }
  else { input with stopped := true, cancels := input.cancels + 1, cancelling := true }

/-- How far the retirement is. A job of the queue is numbered by its round: what a job queues runs in
the round after it. `closing` counts the jobs from the settlement of the read and the cancellation up
to the answer of `cleanup`: `allSettled`, the two awaits, `then`, and the member of `Promise.all`. -/
inductive Retirement
  | live
  | settling (read : Bool)
  | closing (hop due : Nat)
  | joining
  | certifying (due : Nat)
  | retired
  deriving DecidableEq

/-- The jobs between the settlement of a read and the code that awaits `read.finally`. -/
def finallyHops : Nat := 4

def closingHops : Nat := 5

/-! ## 3. What is awaited -/

/-- What is called while a body is read. -/
inductive Callback
  | push
  | inspect
  | qualify
  | finish
  | inspectEnd
  deriving DecidableEq

/-- The identities that the scanner of `HttpContinuation.inspect` emits for a chunk after the chunks
before it, and for the end of the body; with whether it throws after them. -/
structure Scanner where
  push : List Chunk → Chunk → List ResponseIdentity × Bool
  finish : List Chunk → List ResponseIdentity × Bool

/-- `ResponseBodyInspection`. Where there is a scanner it registers the identities; otherwise its calls
are promises of other code. -/
structure Inspection where
  scanner : Option Scanner
  observe : Bool
  qualify : Bool

/-- What is observed of a response. -/
structure Config where
  /-- There is a Responses inspector. -/
  responses : Bool
  inspection : Option Inspection

namespace Config

def observes (config : Config) : Bool := config.inspection.any Inspection.observe

def qualifies (config : Config) : Bool := config.responses && config.inspection.any Inspection.qualify

def scanner (config : Config) : Option Scanner := config.inspection.bind Inspection.scanner

/-- What is awaited between reading a chunk and enqueueing it. -/
def chunkCalls (config : Config) : List Callback :=
  (if config.observes then [.push] else []) ++ (if config.responses then [.inspect] else []) ++
    (if config.inspection.isSome && !config.observes then [.push] else []) ++
    (if config.qualifies then [.qualify] else [])

/-- What is awaited between the end of the body and the completion. -/
def endCalls (config : Config) : List Callback :=
  (if config.inspection.isSome then [.finish] else []) ++
    (if config.responses then [.inspectEnd] else []) ++ (if config.qualifies then [.qualify] else [])

def guards (config : Config) : Callback → Bool
  | .push | .qualify | .finish => true
  | .inspect | .inspectEnd => config.observes

/-- The identities that end within a chunk, as the scanner finds them. -/
def identities (config : Config) (before : List Chunk) (chunk : Chunk) : List ResponseIdentity :=
  match config.scanner with
  | some scanner => (scanner.push before chunk).1
  | none => []

end Config

/-- What a pull goes on with. -/
inductive Work
  | chunk (chunk : Chunk)
  | done
  deriving DecidableEq

/-- Where the pull of the stream is. -/
inductive Pull
  | idle
  /-- The read is pending. -/
  | reading
  /-- The read has settled, with `none` for an error. -/
  | read (result : Option Work) (hop due : Nat)
  | awaiting (work : Work) (call : Callback) (rest : List Callback)
  | settled (work : Work) (call : Callback) (rest : List Callback) (ok : Bool)
  /-- An error is on its way to the `catch`. -/
  | thrown
  deriving DecidableEq

/-! ## 4. States -/

/-- The stream of the client. -/
inductive Downstream
  | readable
  | closed
  | errored
  | canceled
  deriving DecidableEq

/-- One delivery. -/
structure State (platform : Platform) where
  operation : HttpOperation
  finished : Bool
  downstream : Downstream
  enqueued : List Chunk
  /-- What `result` was resolved with. -/
  results : List Delivery
  /-- What the reads were answered, and that one was answered `done`. -/
  body : List Chunk
  ended : Bool
  pull : Pull
  pulling : Bool
  input : InputRetirement
  retirement : Retirement
  /-- `finish` found a pull and waits for it. -/
  joins : Bool
  continuation : HttpContinuation platform
  /-- What the scanner has seen. -/
  pushed : List Chunk
  /-- The identities whose registration was answered. -/
  published : List ResponseIdentity
  /-- The promises awaited so far, and whether they were fulfilled. -/
  calls : List (Callback × Bool)
  round : Nat

namespace State

variable {platform : Platform}

/-- `finish`; the listener of the signal is gone when it stops the operation. -/
def finish (s : State platform) (delivery : Delivery) (cause : Cause) : State platform :=
  if s.finished then s
  else
    let operation := s.operation.stop cause
    let delivery := operation.delivery.getD delivery
    { s with
      finished := true
      operation := operation
      results := s.results ++ [delivery]
      input := s.input.retire (delivery = .complete)
      retirement := .settling s.input.pending
      joins := s.pulling }

def aborted (s : State platform) : State platform :=
  if s.finished then s else { s.finish .canceled .caller with downstream := .errored }

/-- `operation.stop` for an abort, with the listener of the delivery. -/
def stop (s : State platform) (cause : Cause) : State platform :=
  if s.operation.ending.isSome then s else { s with operation := s.operation.stop cause }.aborted

def pulled (s : State platform) : State platform := { s with pull := .idle, pulling := false }

def catches (s : State platform) : State platform :=
  if s.finished then s.pulled
  else { s.finish .failed .upstream with downstream := .errored }.pulled

/-- A call of the scanner and `flush` up to its own call. -/
def scan (s : State platform) (work : Work) (call : Callback) (rest : List Callback)
    (scanned : List ResponseIdentity × Bool) : State platform :=
  let (c, ok) := s.continuation.rememberAll scanned.1
  let s := { s with continuation := c }
  if !(ok && scanned.2) then { s with pull := .settled work call rest false }
  else if c.flushed then { s with pull := .settled work call rest true }
  else { s with pull := .awaiting work call rest }

def invoke (config : Config) (s : State platform) (work : Work) (call : Callback)
    (rest : List Callback) : State platform :=
  match config.scanner, call, work with
  | some scanner, .push, .chunk chunk =>
    { s with pushed := s.pushed ++ [chunk] }.scan work call rest (scanner.push s.pushed chunk)
  | some scanner, .finish, _ => s.scan work call rest (scanner.finish s.pushed)
  | _, _, _ => { s with pull := .awaiting work call rest }

/-- A pull goes on: to what it awaits next, or to its end. -/
def goOn (config : Config) (s : State platform) (work : Work) : List Callback → State platform
  | call :: rest => s.invoke config work call rest
  | [] =>
    match work with
    | .chunk chunk => { s with enqueued := s.enqueued ++ [chunk] }.pulled
    | .done => { s.finish .complete .complete with downstream := .closed }.pulled

/-- The code after an await: nothing once it has finished, the `catch` if it throws. -/
def goesOn (config : Config) (s : State platform) (work : Work) (rest : List Callback)
    (throws : Bool) : State platform :=
  if s.finished then s.pulled else if throws then s.catches else s.goOn config work rest

def afterRead (config : Config) (s : State platform) (result : Option Work) (throws : Bool) :
    State platform :=
  match result with
  | none => s.catches
  | some (.chunk chunk) => s.goesOn config (.chunk chunk) config.chunkCalls throws
  | some .done => s.goesOn config .done config.endCalls throws

/-- The code after a promise. An error of a guarded one stops the operation first. -/
def afterCall (config : Config) (s : State platform) (work : Work) (call : Callback)
    (rest : List Callback) (ok throws : Bool) : State platform :=
  let s := { s with calls := s.calls ++ [(call, ok)] }
  if ok then s.goesOn config work rest throws
  else if config.guards call then { s.stop .publication with pull := .thrown }
  else s.catches

end State

/-! ## 5. Steps -/

/-- An abort of the operation, or a cancellation of the stream downstream, for a cause. -/
inductive Interrupt
  | abort (cause : Cause)
  | cancel (cause : Cause)
  deriving DecidableEq

def Interrupt.Foreign : Interrupt → Prop
  | .abort cause => cause ≠ .complete
  | .cancel cause => cause ≠ .complete

instance (i : Interrupt) : Decidable i.Foreign := by
  cases i <;> exact inferInstanceAs (Decidable (_ ≠ _))

namespace State

variable {platform : Platform}

/-- A stream that has ended cannot be cancelled. -/
def interrupted (s : State platform) : Interrupt → State platform
  | .abort cause => s.stop cause
  | .cancel cause =>
    if s.downstream = .readable then { s with downstream := .canceled }.finish .canceled cause
    else s

/-- `input.read`, up to the call of the reader. -/
def reads (s : State platform) : State platform :=
  if s.input.stopped || s.input.pending then { s with pull := .read none finallyHops (s.round + 1) }
  else { s with pull := .reading, input := { s.input with pending := true, reads := s.input.reads + 1 } }

def answered (s : State platform) (result : Option Work) : State platform :=
  let s := { s with pull := .read result 1 (s.round + 1) }
  match result with
  | some (.chunk chunk) => { s with body := s.body ++ [chunk] }
  | some .done => { s with ended := true }
  | none => s

def busy (s : State platform) : Bool :=
  (match s.pull with
    | .read _ _ due => due = s.round
    | _ => false) ||
  (match s.retirement with
    | .closing _ due => due = s.round
    | .certifying due => due = s.round
    | _ => false)

end State

/-- A step of a delivery. -/
inductive Label
  | pull (interrupt : Option Interrupt)
  | interrupt (interrupt : Interrupt)
  | read (result : Option Work)
  | settle
  | afterRead (throws : Bool)
  | reply (reply : Answer ContinuationReply)
  | fulfil (ok : Bool)
  | afterCall (throws : Bool)
  | thrown
  | cancelled
  | retire
  | round

/-- **What can happen next.** A stream is pulled while it is readable and no pull of it is active. -/
inductive Step {platform : Platform} (config : Config) : State platform → Label → State platform → Prop
  /-- A pull; the source may be interrupted while it is called to read. -/
  | pull {s : State platform} :
      s.downstream = .readable → s.pull = .idle →
      Step config s (.pull none) { s.reads with pulling := true }
  | pullInterrupted {s : State platform} {i : Interrupt} :
      s.downstream = .readable → s.pull = .idle → i.Foreign →
      Step config s (.pull (some i)) { s.reads.interrupted i with pulling := true }
  | interrupt {s : State platform} {i : Interrupt} :
      i.Foreign → Step config s (.interrupt i) (s.interrupted i)
  | read {s : State platform} {result : Option Work} :
      s.pull = .reading → Step config s (.read result) (s.answered result)
  /-- The jobs of `read.finally`; the first clears `pending`. -/
  | settle {s : State platform} {result : Option Work} {hop due : Nat} :
      s.pull = .read result hop due → hop < finallyHops → due = s.round →
      Step config s .settle
        { s with
          pull := .read result (hop + 1) (s.round + 1)
          input := { s.input with pending := false } }
  | afterRead {s : State platform} {result : Option Work} {due : Nat} {throws : Bool} :
      s.pull = .read result finallyHops due → due = s.round →
      Step config s (.afterRead throws) (s.afterRead config result throws)
  /-- A registration is answered. -/
  | reply {s : State platform} {work : Work} {call : Callback} {rest : List Callback}
      {reply : Answer ContinuationReply} {c : HttpContinuation platform} :
      s.pull = .awaiting work call rest → config.scanner.isSome → call = .push ∨ call = .finish →
      s.continuation.published reply = .ok c →
      Step config s (.reply reply)
        { s with
          pull := .settled work call rest true
          continuation := c
          published := s.published ++ c.evidence }
  | refused {s : State platform} {work : Work} {call : Callback} {rest : List Callback}
      {reply : Answer ContinuationReply} {error : HttpError} :
      s.pull = .awaiting work call rest → config.scanner.isSome → call = .push ∨ call = .finish →
      s.continuation.published reply = .error error →
      Step config s (.reply reply) { s with pull := .settled work call rest false }
  /-- A promise of other code settles. -/
  | fulfil {s : State platform} {work : Work} {call : Callback} {rest : List Callback} {ok : Bool} :
      s.pull = .awaiting work call rest →
      config.scanner = none ∨ (call ≠ .push ∧ call ≠ .finish) →
      Step config s (.fulfil ok) { s with pull := .settled work call rest ok }
  | afterCall {s : State platform} {work : Work} {call : Callback} {rest : List Callback}
      {ok throws : Bool} :
      s.pull = .settled work call rest ok →
      Step config s (.afterCall throws) (s.afterCall config work call rest ok throws)
  | thrown {s : State platform} :
      s.pull = .thrown → Step config s .thrown s.catches
  | cancelled {s : State platform} :
      s.input.cancelling = true →
      Step config s .cancelled { s with input := { s.input with cancelling := false } }
  /-- Read and cancellation have settled. -/
  | retireSettled {s : State platform} {read : Bool} :
      s.retirement = .settling read → (read = true → s.pull ≠ .reading) → s.input.cancelling = false →
      Step config s .retire { s with retirement := .closing 1 (s.round + 1) }
  | retireHop {s : State platform} {hop due : Nat} :
      s.retirement = .closing hop due → hop < closingHops → due = s.round →
      Step config s .retire { s with retirement := .closing (hop + 1) (s.round + 1) }
  | retireClosed {s : State platform} {due : Nat} :
      s.retirement = .closing closingHops due → due = s.round →
      Step config s .retire { s with retirement := .joining }
  /-- `Promise.all` has both its members. -/
  | retireJoined {s : State platform} :
      s.retirement = .joining → (s.joins = true → s.pull = .idle) →
      Step config s .retire { s with retirement := .certifying (s.round + 1) }
  | retired {s : State platform} {due : Nat} :
      s.retirement = .certifying due → due = s.round →
      Step config s .retire { s with retirement := .retired }
  /-- The jobs of a round run before those they queue. -/
  | round {s : State platform} :
      s.busy = false → Step config s .round { s with round := s.round + 1 }

/-- The stream as it is made, for an operation that nobody has completed; an aborted one ends it at
once. What the continuation has remembered so far is published (`headers`). -/
def start {platform : Platform} (operation : HttpOperation) (continuation : HttpContinuation platform) :
    State platform :=
  let s : State platform :=
    { operation := operation
      finished := false
      downstream := .readable
      enqueued := []
      results := []
      body := []
      ended := false
      pull := .idle
      pulling := false
      input := ⟨false, false, 0, 0, false⟩
      retirement := .live
      joins := false
      continuation := continuation
      pushed := []
      published := continuation.evidence
      calls := []
      round := 0 }
  if operation.ending.isSome then s.aborted else s

end ClawRouter.ObserveUsage
