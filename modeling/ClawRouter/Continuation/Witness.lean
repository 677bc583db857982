/-
  Subject:   What one WebSocket remembers of its continuations
             (src/worker/websocket-continuation-witnesses.ts) and `HttpContinuation`
             (src/worker/http-continuation.ts), over the stores of all scopes and their other clients.

  A create that names an earlier response or turn asks the store of its scope who owns it. A socket
  saves that call where it remembers the answer itself. It remembers what the store acknowledged to
  it: a registration of the identities, and the qualification of the response.

  * `Socket.Step`: any number of operations on one socket, and everybody else who calls a store.
-/
import ClawRouter.Continuation.Store
import ClawRouter.Lib.Json

namespace ClawRouter.Continuation

open Timed Fallible Js

/-! ## 1. Identities -/

/-- What an identity names. -/
inductive IdentityKind
  | response
  | turn
  deriving DecidableEq

/-- An identity of a continuation. -/
structure ResponseIdentity where
  kind : IdentityKind
  value : String
  deriving DecidableEq

def IdentityKind.limit : IdentityKind → Nat
  | .response => 256
  | .turn => 8192

def identityUnsupported : HttpError :=
  ⟨409, "continuation_restart_required",
    "continuation identity is unsupported; restart with full input and no continuation state"⟩

/-- `responseIdentity`; a missing member is `none`. -/
def responseIdentity (kind : IdentityKind) : Option Json → Answer (Option ResponseIdentity)
  | none => .ok none
  | some .null => .ok none
  | some (.str value) =>
    if value = "" then .ok none
    else if kind.limit < value.utf8ByteSize then .error identityUnsupported
    else .ok (some ⟨kind, value⟩)
  | some _ => .error identityUnsupported

/-! ## 2. The memory of a socket -/

/-- A continuation that a socket is pinned to. -/
structure WebSocketContinuationPin where
  providerId : String
  endpointId : String
  key : Option String
  revision : Option String
  deriving DecidableEq

/-- What a session remembers of a continuation. -/
structure Witness where
  scope : String
  owner : ContinuationOwner
  pin : WebSocketContinuationPin
  evidence : Option PricingEvidence
  deriving DecidableEq

def websocketContinuationWitnessLimit : Nat := 32

/-- The entries stand in the order they were set, oldest first, as those of a `Map` do. -/
structure WebSocketContinuationWitnesses where
  entries : List (ResponseIdentity × Witness)
  closed : Bool

namespace WebSocketContinuationWitnesses

def isFinal : PricingEvidence → Bool
  | .final _ _ => true
  | .pending _ => false

def witnessOf (scope : String) (owner : ContinuationOwner) (pin : WebSocketContinuationPin)
    (evidence : PricingEvidence) (identity : ResponseIdentity) : Witness :=
  ⟨scope, owner, pin, if identity.kind = .response then some evidence else none⟩

/-- `delete`, `set`, and the oldest goes where there are too many. -/
def setEntry (entries : List (ResponseIdentity × Witness)) (identity : ResponseIdentity)
    (witness : Witness) : List (ResponseIdentity × Witness) :=
  let moved := (entries.filter fun e => e.1 ≠ identity) ++ [(identity, witness)]
  if websocketContinuationWitnessLimit < moved.length then moved.tail else moved

def remember (ws : WebSocketContinuationWitnesses) (scope : String) (owner : ContinuationOwner)
    (pin : WebSocketContinuationPin) (identities : List ResponseIdentity)
    (evidence : PricingEvidence) : WebSocketContinuationWitnesses :=
  if ws.closed || !isFinal evidence || pin.key ≠ owner.grantKey ||
      pin.providerId ≠ owner.providerId || pin.endpointId ≠ owner.endpointId then ws
  else
    { ws with
      entries := identities.foldl (fun entries identity =>
        setEntry entries identity (witnessOf scope owner pin evidence identity)) ws.entries }

def usable (scope generation providerId endpointId : String) (pin : WebSocketContinuationPin)
    (witness : Witness) : Bool :=
  witness.scope = scope && witness.owner.policyGeneration = generation &&
    witness.owner.providerId = providerId && witness.owner.endpointId = endpointId &&
    witness.pin.providerId = pin.providerId && witness.pin.endpointId = pin.endpointId &&
    witness.pin.key = pin.key && witness.pin.revision = pin.revision

/-- The entry of an identity, if it may speak for it. -/
def find (ws : WebSocketContinuationWitnesses) (scope generation providerId endpointId : String)
    (pin : WebSocketContinuationPin) (identity : ResponseIdentity) : Option Witness :=
  (ws.entries.lookup identity).filter (usable scope generation providerId endpointId pin)

def resolve (ws : WebSocketContinuationWitnesses) (identities : List ResponseIdentity)
    (scope generation providerId endpointId : String) (pin : Option WebSocketContinuationPin) :
    Option (List ContinuationOwner × List (Option PricingEvidence)) :=
  if ws.closed then none
  else do
    let pin ← pin
    let witnesses ← identities.mapM (ws.find scope generation providerId endpointId pin)
    return (witnesses.map Witness.owner, witnesses.map Witness.evidence)

def close (_ : WebSocketContinuationWitnesses) : WebSocketContinuationWitnesses := ⟨[], true⟩

end WebSocketContinuationWitnesses

/-! ## 3. One operation -/

/-- What the operations use of other code: `identityKey`, the evidence of the tools of a response
(`createResponsesToolEvidence`), and `responseOutcome`. -/
structure Platform where
  identityKey : ResponseIdentity → String
  Tools : Type
  createTools : ToolKnowledge → Tools
  acceptFrame : Tools → Json → Tools
  invalidate : Tools → Tools
  result : Tools → Option (String × ToolKnowledge)
  providerError : Json → Bool

/-- The grant a request is pinned to. -/
inductive PinnedGrant
  | lineage (key lineage : String)
  | environment
  deriving DecidableEq

/-- The continuation of one request. -/
structure HttpContinuation (platform : Platform) where
  scope : String
  requested : Bool
  previous : Option ContinuationOwner
  parentTools : ToolKnowledge
  pinned : Option PinnedGrant
  /-- The identities, at most one of a kind, in the order they came. -/
  evidence : List ResponseIdentity
  publishedCount : Nat
  owner : Option ContinuationOwner
  producerId : String
  tools : platform.Tools
  /-- `claim`: `owned`, or `legacy_unknown`. -/
  claim : Option Bool
  qualificationAttempted : Bool
  finalEvidence : Option PricingEvidence

def continuationRestart : HttpError :=
  ⟨409, "continuation_restart_required",
    "continuation owner is unavailable or changed; restart with full input and omit previous_response_id and x-codex-turn-state"⟩

def unavailable : HttpError :=
  ⟨503, "continuation_unavailable",
    "upstream continuation ownership could not be recorded; restart with full input"⟩

def authorityUnavailable : HttpError :=
  ⟨503, "continuation_unavailable",
    "continuation authority is unavailable; retry later with full input"⟩

def identityConflict : HttpError :=
  ⟨502, "continuation_identity_conflict", "upstream changed its continuation identity"⟩

/-- What `resolve` reads of a create on a socket. `retained` is `retainedToolBase` of its body;
`endpointId` is the endpoint of the create, for a compact call that of the create it belongs to. -/
structure ResolveRequest where
  applies : Bool
  previousResponseId : Option Json
  headerTurn : Option String
  metadataTurn : Option Json
  scope : String
  generation : String
  providerId : String
  endpointId : Option String
  pin : Option WebSocketContinuationPin
  retained : ToolKnowledge → ToolKnowledge
  producerId : String

namespace ResolveRequest

/-- The identities a create names: a response, a turn, or both. -/
def identities (request : ResolveRequest) : Answer (List ResponseIdentity) := do
  let headerTurn ← responseIdentity .turn (request.headerTurn.map .str)
  let metadataTurn ← responseIdentity .turn request.metadataTurn
  require (headerTurn.isNone || metadataTurn.isNone ||
    headerTurn.map ResponseIdentity.value = metadataTurn.map ResponseIdentity.value) continuationRestart
  let response ← responseIdentity .response request.previousResponseId
  return [response, headerTurn.or metadataTurn].filterMap id

def witnessed (request : ResolveRequest) (ws : WebSocketContinuationWitnesses)
    (identities : List ResponseIdentity) :
    Option (List ContinuationOwner × List (Option PricingEvidence)) :=
  request.endpointId.bind fun endpointId =>
    ws.resolve identities request.scope request.generation request.providerId endpointId request.pin

/-- The tools inherited where nothing is known of the response. -/
def inherits (identities : List ResponseIdentity) : ToolKnowledge :=
  if identities.any fun identity => identity.kind = .response then .unknown else .tokenOnly

/-- The owner of all the identities and the tools inherited, from what was answered of them. -/
def decision (request : ResolveRequest) (identities : List ResponseIdentity)
    (owners : List (Option ContinuationOwner)) (evidence : List (Option PricingEvidence)) :
    Answer (ContinuationOwner × ToolKnowledge) := do
  let owner ← demand owners.head?.join continuationRestart
  require (owners.all fun value => value = some owner) continuationRestart
  require (owner.providerId = request.providerId && request.endpointId = some owner.endpointId &&
    owner.policyGeneration = request.generation) continuationRestart
  let previous := (identities.findIdx? fun identity => identity.kind = .response).bind fun i =>
    evidence[i]?.join
  return (owner, match previous with
    | some (.final _ knowledge) => knowledge
    | _ => inherits identities)

/-- `owner?.grantKey && owner.lineage ? … : …`. -/
def pinnedGrant (owner : ContinuationOwner) : PinnedGrant :=
  match owner.grantKey, owner.lineage with
  | some key, some lineage => if key.isEmpty || lineage.isEmpty then .environment else .lineage key lineage
  | _, _ => .environment

def create (platform : Platform) (request : ResolveRequest) (requested : Bool)
    (previous : Option ContinuationOwner) (inherited : ToolKnowledge) : HttpContinuation platform where
  scope := request.scope
  requested := requested
  previous := previous
  parentTools := inherited
  pinned := if requested then some ((previous.map pinnedGrant).getD .environment) else none
  evidence := []
  publishedCount := 0
  owner := none
  producerId := request.producerId
  tools := platform.createTools (request.retained inherited)
  claim := none
  qualificationAttempted := false
  finalEvidence := none

/-- `HttpContinuation.resolve`, given what is answered of the identities; `none` for a create that
has no continuation. -/
def resolve (platform : Platform) (request : ResolveRequest) (answer : List ResponseIdentity →
      Answer (List (Option ContinuationOwner) × List (Option PricingEvidence))) :
    Answer (Option (HttpContinuation platform)) := do
  if !request.applies then return none
  let identities ← request.identities
  if identities.isEmpty then
    return some (create platform request false none (inherits identities))
  else do
    let (owners, evidence) ← answer identities
    let (owner, inherited) ← request.decision identities owners evidence
    return some (create platform request true (some owner) inherited)

/-- What a reply of the store tells of the identities. -/
def heard : Answer ContinuationReply → Answer
    (List (Option ContinuationOwner) × List (Option PricingEvidence))
  | .ok (.resolved owners evidence _) => .ok (owners, evidence)
  | _ => .error authorityUnavailable

end ResolveRequest

namespace HttpContinuation

variable {platform : Platform}

def bind (c : HttpContinuation platform) (owner : ContinuationOwner) :
    Answer (HttpContinuation platform) := do
  require (c.previous.all fun previous => previous = owner) continuationRestart
  return { c with owner := some owner }

def remember (c : HttpContinuation platform) (identity : ResponseIdentity) :
    Answer (HttpContinuation platform) :=
  match c.evidence.find? fun known => known.kind = identity.kind with
  | some known => if known = identity then .ok c else .error identityConflict
  | none => .ok { c with evidence := c.evidence ++ [identity] }

/-- The identities of a frame, until one of them is in conflict. -/
def rememberAll (c : HttpContinuation platform) : List ResponseIdentity → HttpContinuation platform × Bool
  | [] => (c, true)
  | identity :: rest =>
    match c.remember identity with
    | .ok c' => rememberAll c' rest
    | .error _ => (c, false)

def response (c : HttpContinuation platform) : Option ResponseIdentity :=
  c.evidence.find? fun known => known.kind = .response

def responseClaim (c : HttpContinuation platform) : Option ResponseClaim :=
  c.response.map fun identity => ⟨platform.identityKey identity, c.producerId⟩

def registration (c : HttpContinuation platform) : ContinuationInput where
  action :=
  .register
  keys := c.evidence.map platform.identityKey
  owner := c.owner
  responseClaim := c.responseClaim
  knowledge := none
  backgroundJobId := none

def flushed (c : HttpContinuation platform) : Bool := c.owner.isNone || c.evidence.length = c.publishedCount

def published (c : HttpContinuation platform) : Answer ContinuationReply → Answer (HttpContinuation platform)
  | .ok (.registration .stored owned) =>
    match c.responseClaim, owned with
    | some _, some owned => .ok { c with claim := some owned, publishedCount := c.evidence.length }
    | some _, none => .error unavailable
    | none, _ => .ok { c with publishedCount := c.evidence.length }
  | _ => .error unavailable

def observe (c : HttpContinuation platform) (frame : Json) : HttpContinuation platform :=
  let tools := if platform.providerError frame then platform.invalidate c.tools else c.tools
  { c with tools := platform.acceptFrame tools frame }

def qualification (c : HttpContinuation platform) (identity : ResponseIdentity)
    (knowledge : ToolKnowledge) : ContinuationInput where
  action := .qualify
  keys := [platform.identityKey identity]
  owner := c.owner
  responseClaim := some ⟨platform.identityKey identity, c.producerId⟩
  knowledge := some knowledge
  backgroundJobId := none

/-- What `qualify` makes of the reply; a reply that is lost changes nothing. -/
def qualified (c : HttpContinuation platform) (knowledge : ToolKnowledge) :
    Answer ContinuationReply → Answer (HttpContinuation platform)
  | .ok (.qualification .qualified) => .ok { c with finalEvidence := some (.final c.producerId knowledge) }
  | .ok (.qualification .unavailable) => .ok c
  | .ok _ => .error unavailable
  | .error _ => .ok c

end HttpContinuation

/-- What an operation waits for; `published` is the end of a `publishFrame` that did not throw. -/
inductive Phase
  | idle
  | registering (frame : Json)
  | registered (frame : Json) (reply : Answer ContinuationReply)
  | qualifying (identity : ResponseIdentity) (knowledge : ToolKnowledge)
  | qualified (identity : ResponseIdentity) (knowledge : ToolKnowledge)
      (reply : Answer ContinuationReply)
  | published

/-- A request of the session. -/
structure Operation (platform : Platform) where
  continuation : HttpContinuation platform
  aborted : Bool
  phase : Phase

namespace Operation

variable {platform : Platform}

def qualify (op : Operation platform) : Operation platform :=
  let c := op.continuation
  match platform.result c.tools, c.claim with
  | some (responseId, knowledge), some claim =>
    if c.qualificationAttempted || c.owner.isNone || op.aborted then { op with phase := .published }
    else
      let attempted := { c with qualificationAttempted := true }
      if !claim then { op with continuation := attempted, phase := .published }
      else if c.response = some ⟨.response, responseId⟩ then
        { op with continuation := attempted, phase := .qualifying ⟨.response, responseId⟩ knowledge }
      else { op with continuation := attempted, phase := .idle }
  | _, _ => { op with phase := .published }

/-- `publishFrame` once its identities are published. -/
def afterPublish (op : Operation platform) (frame : Json) : Operation platform :=
  if op.aborted then { op with phase := .published }
  else qualify { op with continuation := op.continuation.observe frame }

def publishFrame (op : Operation platform) (identities : List ResponseIdentity) (frame : Json) :
    Operation platform :=
  let (c, ok) := op.continuation.rememberAll identities
  if !ok then { op with continuation := c, phase := .idle }
  else if c.flushed then afterPublish { op with continuation := c } frame
  else { op with continuation := c, phase := .registering frame }

def hear (op : Operation platform) : Operation platform :=
  match op.phase with
  | .registered frame reply =>
    match op.continuation.published reply with
    | .ok c => afterPublish { op with continuation := c } frame
    | .error _ => { op with phase := .idle }
  | .qualified _ knowledge reply =>
    match op.continuation.qualified knowledge reply with
    | .ok c => { op with continuation := c, phase := .published }
    | .error _ => { op with phase := .idle }
  | _ => op

/-- A call was not made, it was lost, or its reply was. -/
def lose (op : Operation platform) : Operation platform :=
  match op.phase with
  | .registering _ => { op with phase := .idle }
  | .registered _ _ => { op with phase := .idle }
  | .qualifying _ _ => { op with phase := .published }
  | .qualified _ _ _ => { op with phase := .published }
  | _ => op

def call? (op : Operation platform) : Option ContinuationInput :=
  match op.phase with
  | .registering _ => some op.continuation.registration
  | .qualifying identity knowledge => some (op.continuation.qualification identity knowledge)
  | _ => none

def replied (op : Operation platform) (reply : Answer ContinuationReply) : Operation platform :=
  match op.phase with
  | .registering frame => { op with phase := .registered frame reply }
  | .qualifying identity knowledge => { op with phase := .qualified identity knowledge reply }
  | _ => op

def rememberWebSocket (op : Operation platform) (pin : WebSocketContinuationPin)
    (ws : WebSocketContinuationWitnesses) : WebSocketContinuationWitnesses :=
  match op.continuation.owner, op.continuation.finalEvidence with
  | some owner, some evidence =>
    if op.aborted then ws
    else ws.remember op.continuation.scope owner pin op.continuation.evidence evidence
  | _, _ => ws

end Operation

/-! ## 4. One socket and everybody else -/

namespace Socket

/-- What a store acknowledged to the socket: the owner of a key and, of a response that it found
qualified, the evidence; the binding expires at `expiresAtMs`. -/
structure Acknowledgement where
  scope : String
  key : String
  owner : ContinuationOwner
  evidence : Option PricingEvidence
  expiresAtMs : Int
  deriving DecidableEq

/-- What a reply to a call acknowledges, given the store after it. -/
def acknowledgements (now : Int) (scope : String) (input : ContinuationInput)
    (s : ContinuationStore) : Answer ContinuationReply → List Acknowledgement
  | .ok (.registration .stored _) => input.keys.filterMap fun key =>
    (s.get key now).map fun row => ⟨scope, key, row.owner, none, row.expiresAtMs⟩
  | .ok (.qualification .qualified) => input.keys.filterMap fun key =>
    (s.get key now).map fun row => ⟨scope, key, row.owner, parseEvidence row.pricingEvidence, row.expiresAtMs⟩
  | _ => []

/-- The stores and the requests of a session. -/
structure State (platform : Platform) where
  stores : String → ContinuationStore
  witnesses : WebSocketContinuationWitnesses
  operations : Nat → Option (Operation platform)
  /-- Everything acknowledged so far. -/
  acknowledged : List Acknowledgement

namespace State

variable {platform : Platform}

def goOn (s : State platform) (i : Nat) (op : Operation platform) : State platform :=
  { s with operations := Function.update s.operations i (some op) }

def call (s : State platform) (now : Int) (scope : String) (op : Op) : State platform :=
  { s with stores := Function.update s.stores scope (exec now (s.stores scope) op).1 }

end State

/-- A step of a session. -/
inductive Label
  | create (i : Nat) (request : ResolveRequest)
  | bind (i : Nat) (owner : ContinuationOwner)
  | frame (i : Nat) (identities : List ResponseIdentity) (frame : Json)
  | serve (i : Nat)
  | hear (i : Nat)
  | lose (i : Nat)
  | remember (i : Nat) (pin : WebSocketContinuationPin)
  | abort (i : Nat)
  | other (scope : String) (op : Op)
  | close

variable (platform : Platform)

/-- **What can happen next.** A call that is given up may still reach its store; it is then one of the
operations of others. So is the closing of a store's expired bindings. -/
inductive Step (now : Int) : State platform → Label → State platform → Prop
  /-- A create is resolved by the socket, or by whatever the store answered. -/
  | create {s : State platform} {i : Nat} {request : ResolveRequest} {c : HttpContinuation platform}
      {stored : Answer ContinuationReply} :
      s.operations i = none →
      request.resolve platform (fun identities =>
        match request.witnessed s.witnesses identities with
        | some (owners, evidence) => .ok (owners.map some, evidence)
        | none => ResolveRequest.heard stored) = .ok (some c) →
      Step now s (.create i request) (s.goOn i ⟨c, false, .idle⟩)
  /-- The owner of an operation is bound once. -/
  | bind {s : State platform} {i : Nat} {op : Operation platform} {owner : ContinuationOwner}
      {c : HttpContinuation platform} :
      s.operations i = some op → op.phase = .idle → op.continuation.owner = none →
      op.continuation.bind owner = .ok c →
      Step now s (.bind i owner) (s.goOn i { op with continuation := c })
  /-- A frame of the operation arrives; frames of one operation are published one after the other. -/
  | frame {s : State platform} {i : Nat} {op : Operation platform} {identities : List ResponseIdentity}
      {frame : Json} :
      s.operations i = some op → op.phase = .idle →
      Step now s (.frame i identities frame) (s.goOn i (op.publishFrame identities frame))
  | serve {s : State platform} {i : Nat} {op : Operation platform} {input : ContinuationInput}
      {context : BackgroundContext} {store : ContinuationStore} {reply : Answer ContinuationReply} :
      s.operations i = some op → op.call? = some input →
      exec now (s.stores op.continuation.scope) (.handle input context) = (store, reply) →
      Step now s (.serve i)
        { (s.call now op.continuation.scope (.handle input context)).goOn i (op.replied reply) with
          acknowledged := acknowledgements now op.continuation.scope input store reply ++ s.acknowledged }
  | hear {s : State platform} {i : Nat} {op : Operation platform} :
      s.operations i = some op → Step now s (.hear i) (s.goOn i op.hear)
  | lose {s : State platform} {i : Nat} {op : Operation platform} :
      s.operations i = some op → Step now s (.lose i) (s.goOn i op.lose)
  | remember {s : State platform} {i : Nat} {op : Operation platform} {pin : WebSocketContinuationPin} :
      s.operations i = some op → op.phase = .published →
      Step now s (.remember i pin)
        { s.goOn i { op with phase := .idle } with
          witnesses := op.rememberWebSocket pin s.witnesses }
  | abort {s : State platform} {i : Nat} {op : Operation platform} :
      s.operations i = some op → Step now s (.abort i) (s.goOn i { op with aborted := true })
  | other {s : State platform} {scope : String} {op : Op} :
      Step now s (.other scope op) (s.call now scope op)
  | close {s : State platform} : Step now s .close { s with witnesses := s.witnesses.close }

/-- A socket that has just been opened, over any stores. -/
def start (stores : String → ContinuationStore) : State platform where
  stores :=
  stores
  witnesses := ⟨[], false⟩
  operations := fun _ => none
  acknowledged := []

end Socket

end ClawRouter.Continuation
