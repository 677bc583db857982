/-
  Subject:   What is kept of a Responses document while it is tokenized (src/worker/responses-usage.ts,
             `metadataProjection`; src/worker/responses-tool-evidence.ts, `createToolEvidenceProjection`
             as it is made without ciphertexts).

  A container that is open is the node of its frame. The source holds references to it; here it is
  written to its parent when the frame is closed, and `root` writes what is still open.

  * **`acceptAll_mergeChunks`**: where the chunks of a text are cut makes no difference.
-/
import ClawRouter.Inspect.Tokens
import ClawRouter.Lib.Members

namespace ClawRouter.Inspect

open Utf16 Js

/-! ## 1. Tokens -/

/-- A token of the tokenizer. -/
inductive Token
  | startObject
  | endObject
  | startArray
  | endArray
  | startKey
  | endKey
  | startString
  | endString
  | stringChunk (value : Text)
  | startNumber
  | endNumber
  | numberChunk (value : Text)
  | nullValue
  | trueValue
  | falseValue
  deriving DecidableEq

def Token.startsValue : Token → Bool
  | .startObject => true
  | .startArray => true
  | .startString => true
  | .startNumber => true
  | .nullValue => true
  | .trueValue => true
  | .falseValue => true
  | _ => false

/-- Adjacent string or number chunks arrive as one. -/
def mergeChunks : List Token → List Token
  | [] => []
  | .stringChunk a :: rest =>
    match mergeChunks rest with
    | .stringChunk b :: rest => .stringChunk (a ++ b) :: rest
    | rest => .stringChunk a :: rest
  | .numberChunk a :: rest =>
    match mergeChunks rest with
    | .numberChunk b :: rest => .numberChunk (a ++ b) :: rest
    | rest => .numberChunk a :: rest
  | token :: rest => token :: mergeChunks rest

def numberOf (scalar : Text) : Value := .num (((decimal scalar).map Double.round).getD .nan)

def oneOf (names : List String) (key : Text) : Bool := names.any fun name => key == text name

def put (container : Value) (key : Text) (value : Value) : Value :=
  match container with
  | .obj members => .obj (set members key value)
  | container => container

/-! ## 2. The metadata -/

/-- Which object a frame is of. -/
inductive MetadataContext
  | root
  | response
  | usage
  | details
  | creation
  deriving DecidableEq

/-- What is kept of a member. -/
inductive MetadataField
  | context (context : MetadataContext)
  | output
  | text
  | identity
  | number
  | error
  deriving DecidableEq

/-- The text that is being captured. -/
inductive MetadataCapture
  | key
  | text
  | identity
  | number
  | error
  deriving DecidableEq

/-- An `InspectionLimit`, or another exception. -/
inductive InspectionFailure
  | limit
  | other
  deriving DecidableEq

/-- An object or a list that is open. -/
structure MetadataFrame where
  context : Option MetadataContext
  /-- The container, where it was assigned. -/
  node : Option Value
  key : Option Text
  /-- The container is the array of an output, of which one element is kept. -/
  output : Bool

/-- The state of `metadataProjection`. -/
structure Projection where
  /-- The innermost first. -/
  frames : List MetadataFrame
  value : Option Value
  complete : Bool
  capture : Option MetadataCapture
  scalar : Text

def depthLimit : Nat := 128

def scalarLimit : Nat := 64

def counters : List String :=
  ["input_tokens", "prompt_tokens", "inputTokens", "output_tokens", "completion_tokens", "outputTokens",
    "total_tokens", "totalTokens", "cache_read_input_tokens", "cache_creation_input_tokens",
    "cache_creation_ephemeral_5m_input_tokens", "cache_creation_ephemeral_1h_input_tokens"]

def detailCounters : List String :=
  ["cached_tokens", "cache_read_input_tokens", "cache_write_tokens", "text_tokens", "image_tokens",
    "reasoning_tokens"]

def creationCounters : List String := ["ephemeral_5m_input_tokens", "ephemeral_1h_input_tokens"]

def textKeys : List String := ["type", "object", "status", "service_tier"]

def MetadataFrame.put (f : MetadataFrame) (value : Value) : MetadataFrame :=
  { f with node := f.node.map fun node => Inspect.put node (f.key.getD []) value }

/-- The frame, with a container inside it that is closed. -/
def MetadataFrame.close (f inner : MetadataFrame) : MetadataFrame :=
  match inner.node with
  | some value => f.put value
  | none => f

def MetadataFrame.witness (f : MetadataFrame) : MetadataFrame :=
  match f.output, f.node with
  | true, some (.arr []) => { f with node := some (.arr [.bool true]) }
  | _, _ => f

namespace Projection

def fresh : Projection := ⟨[], none, false, none, []⟩

section Accept

variable (inspectIdentity receipt : Bool)

def fieldOf (context : MetadataContext) (key : Text) : Option MetadataField :=
  match context with
  | .usage =>
    if oneOf ["input_tokens_details", "prompt_tokens_details", "output_tokens_details",
        "completion_tokens_details"] key then some (.context .details)
    else if key == Js.text "cache_creation" then some (.context .creation)
    else if oneOf counters key || receipt && key == Js.text "cost_in_usd_ticks" then some .number else none
  | .details => if oneOf detailCounters key then some .number else none
  | .creation => if oneOf creationCounters key then some .number else none
  | context =>
    if oneOf textKeys key then some .text
    else if inspectIdentity && (key == Js.text "id" || receipt && key == Js.text "model") then some .identity
    else if key == Js.text "output" then some .output
    else if context = .root && key == Js.text "error" then some .error
    else if context = .root && key == Js.text "response" then some (.context .response)
    else if key == Js.text "usage" then some (.context .usage) else none

def field (s : Projection) : Option MetadataField :=
  match s.frames with
  | [] => some (.context .root)
  | f :: _ =>
    match f.context, f.key with
    | some context, some key => if key = [] then none else fieldOf inspectIdentity receipt context key
    | _, _ => none

def assign (s : Projection) (next : Value) : Projection :=
  match s.frames with
  | [] => { s with value := some next, complete := false }
  | f :: rest =>
    if (s.field inspectIdentity receipt).isSome then { s with frames := f.put next :: rest } else s

/-- The value, with the containers that are still open. -/
def root (s : Projection) : Option Value := go s.frames
where
  go : List MetadataFrame → Option Value
    | [] => s.value
    | [f] => f.node.or s.value
    | f :: g :: rest => go (g.close f :: rest)
  termination_by frames => frames.length

def pop (s : Projection) : Projection :=
  match s.frames with
  | [] => { s with complete := true }
  | [f] => { s with frames := [], value := f.node.or s.value, complete := true }
  | f :: g :: rest => { s with frames := g.close f :: rest }

def witnessed (s : Projection) (token : Token) : Projection :=
  match s.frames with
  | f :: rest => if token.startsValue then { s with frames := f.witness :: rest } else s
  | [] => s

def openContainer (s : Projection) (selected : Option MetadataField) (object : Bool) :
    Except InspectionFailure Projection :=
  if depthLimit ≤ s.frames.length then .error .limit
  else
    let next := selected.map fun _ => if object then Value.obj [] else .arr []
    let s := match next with
      | some next => s.assign inspectIdentity receipt next
      | none => s
    let context := match selected with
      | some (.context context) => if object then some context else none
      | _ => none
    .ok { s with frames := ⟨context, next, none, selected = some .output && !object⟩ :: s.frames }

/-- A chunk that is kept as a scalar, of this length at most. -/
def keep (s : Projection) (limit : Nat) (chunk : Text) : Except InspectionFailure Projection :=
  if limit < s.scalar.length + chunk.length then .error .limit else .ok { s with scalar := s.scalar ++ chunk }

def settled (s : Projection) : Projection := { s with scalar := [], capture := none }

def accept (s : Projection) (token : Token) : Except InspectionFailure Projection :=
  let selected := if token.startsValue then s.field inspectIdentity receipt else none
  let s := s.witnessed token
  let assign := fun (s : Projection) value => s.assign inspectIdentity receipt value
  match token with
  | .startObject => s.openContainer inspectIdentity receipt selected true
  | .startArray => s.openContainer inspectIdentity receipt selected false
  | .endObject => .ok s.pop
  | .endArray => .ok s.pop
  | .startKey =>
    match s.frames with
    | [] => .error .other
    | f :: rest =>
      .ok { s with
        frames := { f with key := none } :: rest, scalar := []
        capture := if f.context.isSome then some .key else none }
  | .endKey =>
    if s.capture = some .key then
      match s.frames with
      | [] => .error .other
      | f :: rest => .ok { s with frames := { f with key := some s.scalar } :: rest }.settled
    else .ok s.settled
  | .startString =>
    .ok { assign s (.str []) with
      scalar := []
      capture := match selected with
        | some .text => some .text
        | some .identity => some .identity
        | some .error => some .error
        | _ => none }
  | .stringChunk chunk =>
    match s.capture with
    | some .error => .ok (if chunk = [] then s else assign s (.bool true))
    | some .key =>
      -- an overlong key cannot name a selected field
      if scalarLimit < s.scalar.length + chunk.length then .ok s.settled
      else .ok { s with scalar := s.scalar ++ chunk }
    | some .text => s.keep scalarLimit chunk
    | some .identity => s.keep 256 chunk
    | _ => .ok s
  | .endString =>
    .ok (match s.capture with
      | some .text => (assign s (.str s.scalar)).settled
      | some .identity => (assign s (.str s.scalar)).settled
      | _ => s.settled)
  | .startNumber =>
    .ok { assign s (.num .zero) with
      scalar := []
      capture := match selected with
        | some .number => some .number
        | some .error => some .number
        | _ => none }
  | .numberChunk chunk => if s.capture = some .number then s.keep scalarLimit chunk else .ok s
  | .endNumber =>
    .ok (if s.capture = some .number then (assign s (numberOf s.scalar)).settled else s.settled)
  | .nullValue => .ok (assign s .null)
  | .trueValue => .ok (assign s (.bool true))
  | .falseValue => .ok (assign s (.bool false))

end Accept

end Projection

/-! ## 3. The tool items -/

/-- Which object a frame of the tools is of. -/
inductive ToolContext
  | root
  | response
  | items
  | item
  | tools
  | tool
  | environment
  | action
  deriving DecidableEq

/-- What is kept of a member. -/
inductive ToolField
  | context (context : ToolContext)
  | text
  | number
  deriving DecidableEq

/-- The text that is being captured. -/
inductive ToolCapture
  | key
  | text
  | number
  deriving DecidableEq

/-- An object or a list that is open. -/
structure ToolFrame where
  context : Option ToolContext
  node : Option Value
  key : Option Text

/-- The state of `createToolEvidenceProjection`. -/
structure ToolEvidence where
  frames : List ToolFrame
  value : Option Value
  scalar : Text
  capture : Option ToolCapture
  failed : Bool
  entries : Nat

def toolEvidenceLimit : Nat := 1024

def responseTextKeys : List String := ["type", "id", "response_id", "status", "object"]

def itemTextKeys : List String := ["type", "id", "name", "role", "execution", "status"]

/-- The value goes into the container of the frame: to its end, or under the key. -/
def ToolFrame.put (f : ToolFrame) (value : Value) : ToolFrame :=
  { f with node := f.node.map fun
      | .arr items => .arr (items ++ [value])
      | node => Inspect.put node (f.key.getD []) value }

/-- A container inside the frame that is closed takes the place it was given. -/
def ToolFrame.close (f inner : ToolFrame) : ToolFrame :=
  match inner.node with
  | some value =>
    { f with node := f.node.map fun
        | .arr items => .arr (items.dropLast ++ [value])
        | node => Inspect.put node (f.key.getD []) value }
  | none => f

namespace ToolEvidence

def fresh : ToolEvidence := ⟨[], none, [], none, false, 0⟩

def fail (s : ToolEvidence) : ToolEvidence :=
  { s with failed := true, value := none, frames := [], scalar := [], capture := none }

def fieldOf (context : ToolContext) (key : Text) : Option ToolField :=
  let under (name : String) (field : ToolField) : Option ToolField := if key == Js.text name then
    some field else none
  match context with
  | .items => some (.context .item)
  | .tools => some (.context .tool)
  | .root =>
    if oneOf responseTextKeys key then some .text
    else under "output" (.context .items) <|> under "response" (.context .response) <|>
      under "item" (.context .item) <|> under "output_index" .number <|> under "item_id" .text
  | .response => if oneOf responseTextKeys key then some .text else under "output" (.context .items)
  | .item =>
    if oneOf itemTextKeys key then some .text
    else under "tools" (.context .tools) <|> under "action" (.context .action)
  | .tool =>
    if oneOf itemTextKeys key then some .text
    else under "tools" (.context .tools) <|> under "environment" (.context .environment) <|>
      under "display_height" .number <|> under "display_width" .number
  | .environment => under "type" .text
  | .action => under "type" .text

def field (s : ToolEvidence) : Option ToolField :=
  match s.frames with
  | [] => some (.context .root)
  | f :: _ =>
    match f.context with
    | none => none
    | some .items => some (.context .item)
    | some .tools => some (.context .tool)
    | some context =>
      match f.key with
      | some key => if key = [] then none else fieldOf context key
      | none => none

def assign (s : ToolEvidence) (next : Value) : ToolEvidence :=
  let selected := s.field
  let counted := selected = some (.context .item) || selected = some (.context .tool)
  let s := if counted then { s with entries := s.entries + 1 } else s
  if counted && toolEvidenceLimit < s.entries then s.fail
  else
    match s.frames with
    | [] => { s with value := some next }
    | f :: rest => if selected.isSome then { s with frames := f.put next :: rest } else s

def root (s : ToolEvidence) : Option Value := if s.failed then none else go s.frames
where
  go : List ToolFrame → Option Value
    | [] => s.value
    | [f] => f.node.or s.value
    | f :: g :: rest => go (g.close f :: rest)
  termination_by frames => frames.length

def pop (s : ToolEvidence) : ToolEvidence :=
  match s.frames with
  | [] => s
  | [f] => { s with frames := [], value := f.node.or s.value }
  | f :: g :: rest => { s with frames := g.close f :: rest }

def openContainer (s : ToolEvidence) (object : Bool) : ToolEvidence :=
  if 128 ≤ s.frames.length then s.fail
  else
    let selected := s.field
    let next := selected.map fun _ => if object then Value.obj [] else .arr []
    let s := match next with
      | some next => s.assign next
      | none => s
    if s.failed then s
    else
      let listed := selected = some (.context .items) || selected = some (.context .tools)
      let context := match selected with
        | some (.context context) => if object != listed then some context else none
        | _ => none
      { s with frames := ⟨context, next, none⟩ :: s.frames }

def settled (s : ToolEvidence) : ToolEvidence := { s with scalar := [], capture := none }

/-- The frame at the top, changed; where there is none the metadata, which has as many, throws first. -/
def onTop (s : ToolEvidence) (change : ToolFrame → ToolFrame) : ToolEvidence :=
  match s.frames with
  | [] => s
  | f :: rest => { s with frames := change f :: rest }

def accept (s : ToolEvidence) (token : Token) : ToolEvidence :=
  if s.failed then s
  else
    match token with
    | .startObject => s.openContainer true
    | .startArray => s.openContainer false
    | .endObject => s.pop
    | .endArray => s.pop
    | .startKey =>
      { s.onTop fun f => { f with key := none } with
        scalar := []
        capture := if s.frames.head?.any fun f => f.context.isSome then some .key else none }
    | .endKey =>
      (if s.capture = some .key then s.onTop fun f => { f with key := some s.scalar } else s).settled
    | .startString =>
      { s with
        scalar := []
        capture := match s.field with
          | some .text => some .text
          | some (.context .environment) => some .text
          | _ => none }
    | .stringChunk chunk =>
      match s.capture with
      | none => s
      | some .key =>
        if scalarLimit < s.scalar.length + chunk.length then s.settled
        else { s with scalar := s.scalar ++ chunk }
      | some _ =>
        if 256 < s.scalar.length + chunk.length then s.fail else { s with scalar := s.scalar ++ chunk }
    | .endString => (s.assign (.str (if s.capture = some .text then s.scalar else []))).settled
    | .startNumber =>
      { s with scalar := [], capture := if s.field = some .number then some .number else none }
    | .numberChunk chunk =>
      if s.capture = some .number then
        if scalarLimit < s.scalar.length + chunk.length then s.fail else
          { s with scalar := s.scalar ++ chunk }
      else s
    | .endNumber => (s.assign (if s.capture = some .number then numberOf s.scalar else .num .zero)).settled
    | .nullValue => s.assign .null
    | .trueValue => s.assign (.bool true)
    | .falseValue => s.assign (.bool false)

end ToolEvidence

/-! ## 4. Both, and where chunks are cut -/

/-- What a document leaves: the metadata and the tool items. -/
structure Kept where
  metadata : Projection
  tools : ToolEvidence

section Chunks

variable (inspectIdentity receipt : Bool)

def Kept.accept (k : Kept) (token : Token) : Except InspectionFailure Kept :=
  (k.metadata.accept inspectIdentity receipt token).map fun metadata => ⟨metadata, k.tools.accept token⟩

def Kept.acceptAll (k : Kept) (tokens : List Token) : Except InspectionFailure Kept :=
  tokens.foldlM (Kept.accept inspectIdentity receipt) k

variable {inspectIdentity receipt}

theorem Projection.witnessed_later {s : Projection} {token : Token} (h : token.startsValue = false) :
    s.witnessed token = s := by
  unfold Projection.witnessed
  split
  · rw [h]
    rfl
  · rfl

theorem MetadataFrame.put_again (f : MetadataFrame) (v w : Value) : (f.put v).put w = f.put w := by
  unfold MetadataFrame.put
  cases f.node with
  | none => rfl
  | some node =>
    cases node with
    | obj members => exact congrArg (fun m => { f with node := some (.obj m) }) (set_again members _ v w)
    | _ => rfl

theorem Projection.assign_assign (s : Projection) (value : Value) :
    (s.assign inspectIdentity receipt value).assign inspectIdentity receipt value =
      s.assign inspectIdentity receipt value := by
  unfold Projection.assign
  cases hframes : s.frames with
  | nil => rfl
  | cons f rest =>
    by_cases hfield : (s.field inspectIdentity receipt).isSome = true
    · have hagain : (Projection.field inspectIdentity receipt
          { s with frames := f.put value :: rest }).isSome = true := by
        unfold Projection.field at hfield ⊢
        rw [hframes] at hfield
        exact hfield
      simp only [hfield, if_true, hagain, MetadataFrame.put_again]
    · simp only [hfield, Bool.false_eq_true, if_false, hframes]

theorem Projection.keep_append (s : Projection) (limit : Nat) (a b : Text) :
    s.keep limit (a ++ b) = s.keep limit a >>= fun s => s.keep limit b := by
  unfold Projection.keep
  rw [List.length_append]
  by_cases ha : limit < s.scalar.length + a.length
  · rw [if_pos ha, if_pos (by omega)]
    rfl
  · rw [if_neg ha]
    show _ = if limit < (s.scalar ++ a).length + b.length then _ else _
    rw [List.length_append, ← Nat.add_assoc, List.append_assoc]

theorem Projection.keep_capture {s s' : Projection} {limit : Nat} {a : Text} (h : s.keep limit a = .ok s') :
    s'.capture = s.capture := by
  unfold Projection.keep at h
  split at h <;> cases h
  rfl

theorem Projection.accept_stringChunk (s : Projection) (a b : Text) :
    s.accept inspectIdentity receipt (.stringChunk (a ++ b)) =
      s.accept inspectIdentity receipt (.stringChunk a) >>= fun s =>
        s.accept inspectIdentity receipt (.stringChunk b) := by
  have hlater : ∀ (s : Projection) (chunk : Text), s.witnessed (.stringChunk chunk) = s :=
    fun s chunk => Projection.witnessed_later rfl
  unfold Projection.accept
  simp only [hlater]
  cases hcapture : s.capture with
  | none => simp only [bind, Except.bind, hcapture]
  | some capture =>
    cases capture with
    | number => simp only [bind, Except.bind, hcapture]
    | key =>
      dsimp only
      rw [List.length_append]
      by_cases ha : scalarLimit < s.scalar.length + a.length
      · rw [if_pos ha, if_pos (by omega)]
        rfl
      · rw [if_neg ha]
        simp only [bind, Except.bind, List.length_append, ← Nat.add_assoc, List.append_assoc]
        rfl
    | error =>
      have hassign : ∀ value, (s.assign inspectIdentity receipt value).capture = s.capture := by
        intro value
        unfold Projection.assign
        split
        · rfl
        · split <;> rfl
      cases a with
      | nil => simp only [bind, Except.bind, List.nil_append, if_true, hcapture]
      | cons u a =>
        simp only [bind, Except.bind, List.cons_append, reduceCtorEq, if_false, hassign, hcapture,
          Projection.assign_assign, ite_self]
    | text | identity =>
      dsimp only
      rw [Projection.keep_append]
      cases hkeep : s.keep _ a with
      | error e => rfl
      | ok s' => simp only [bind, Except.bind, (Projection.keep_capture hkeep).trans hcapture]

theorem Projection.accept_numberChunk (s : Projection) (a b : Text) :
    s.accept inspectIdentity receipt (.numberChunk (a ++ b)) =
      s.accept inspectIdentity receipt (.numberChunk a) >>= fun s =>
        s.accept inspectIdentity receipt (.numberChunk b) := by
  have hlater : ∀ (s : Projection) (chunk : Text), s.witnessed (.numberChunk chunk) = s :=
    fun s chunk => Projection.witnessed_later rfl
  unfold Projection.accept
  simp only [hlater]
  by_cases hcapture : s.capture = some .number
  · rw [if_pos hcapture, if_pos hcapture, Projection.keep_append]
    cases hkeep : s.keep scalarLimit a with
    | error e => rfl
    | ok s' => simp only [bind, Except.bind, (Projection.keep_capture hkeep).trans hcapture, if_true]
  · rw [if_neg hcapture, if_neg hcapture]
    simp only [bind, Except.bind, hcapture, if_false]

theorem ToolEvidence.accept_stringChunk (s : ToolEvidence) (a b : Text) :
    s.accept (.stringChunk (a ++ b)) = (s.accept (.stringChunk a)).accept (.stringChunk b) := by
  unfold ToolEvidence.accept
  by_cases hfailed : s.failed = true
  · simp only [hfailed, if_true]
  · simp only [hfailed, Bool.false_eq_true, if_false]
    cases hcapture : s.capture with
    | none => simp only [hfailed, hcapture, Bool.false_eq_true, if_false]
    | some capture =>
      cases capture with
      | key =>
        rw [List.length_append]
        by_cases ha : scalarLimit < s.scalar.length + a.length
        · rw [if_pos ha, if_pos (by omega)]
          simp [ToolEvidence.settled, hfailed]
        · rw [if_neg ha]
          simp only [Bool.false_eq_true, if_false, List.length_append, List.append_assoc, Nat.add_assoc]
          split
          · simp [ToolEvidence.settled, hfailed]
          · rfl
      | text | number =>
        dsimp only
        rw [List.length_append]
        by_cases ha : 256 < s.scalar.length + a.length
        · rw [if_pos ha, if_pos (by omega)]
          simp [ToolEvidence.fail]
        · rw [if_neg ha]
          simp only [Bool.false_eq_true, if_false, List.length_append, List.append_assoc, Nat.add_assoc]
          rfl

theorem ToolEvidence.accept_numberChunk (s : ToolEvidence) (a b : Text) :
    s.accept (.numberChunk (a ++ b)) = (s.accept (.numberChunk a)).accept (.numberChunk b) := by
  unfold ToolEvidence.accept
  by_cases hfailed : s.failed = true
  · simp only [hfailed, if_true]
  · simp only [hfailed, Bool.false_eq_true, if_false]
    by_cases hcapture : s.capture = some .number
    · rw [if_pos hcapture, if_pos hcapture, List.length_append]
      by_cases ha : scalarLimit < s.scalar.length + a.length
      · rw [if_pos ha, if_pos (by omega)]
        simp [ToolEvidence.fail]
      · rw [if_neg ha]
        simp only [Bool.false_eq_true, if_false, hcapture, if_true, List.length_append, List.append_assoc,
          ← Nat.add_assoc]
        rfl
    · rw [if_neg hcapture, if_neg hcapture]
      simp only [hfailed, Bool.false_eq_true, if_false, hcapture]

theorem Kept.accept_append {k : Kept} {whole first second : Token}
    (hmetadata : k.metadata.accept inspectIdentity receipt whole =
      k.metadata.accept inspectIdentity receipt first >>= fun s => s.accept inspectIdentity receipt second)
    (htools : k.tools.accept whole = (k.tools.accept first).accept second) :
    k.accept inspectIdentity receipt whole =
      k.accept inspectIdentity receipt first >>= fun k => k.accept inspectIdentity receipt second := by
  unfold Kept.accept
  rw [hmetadata, htools]
  cases k.metadata.accept inspectIdentity receipt first with
  | error e => rfl
  | ok s => rfl

theorem Kept.acceptAll_cons (k : Kept) (token : Token) (rest : List Token) :
    k.acceptAll inspectIdentity receipt (token :: rest) =
      k.accept inspectIdentity receipt token >>= fun k => k.acceptAll inspectIdentity receipt rest := rfl

theorem Kept.acceptAll_append (k : Kept) (xs ys : List Token) :
    k.acceptAll inspectIdentity receipt (xs ++ ys) =
      k.acceptAll inspectIdentity receipt xs >>= fun k => k.acceptAll inspectIdentity receipt ys :=
  List.foldlM_append

theorem Kept.acceptAll_merged {whole first second : Token} {merged rest : List Token}
    (hsame : ∀ k : Kept, k.acceptAll inspectIdentity receipt (second :: merged) =
      k.acceptAll inspectIdentity receipt rest)
        (happend : ∀ k : Kept, k.accept inspectIdentity receipt whole =
      k.accept inspectIdentity receipt first >>= fun k => k.accept inspectIdentity receipt second) (k : Kept) :
    k.acceptAll inspectIdentity receipt (whole :: merged) = k.acceptAll inspectIdentity receipt
      (first :: rest) := by
  rw [Kept.acceptAll_cons, Kept.acceptAll_cons, happend]
  cases k.accept inspectIdentity receipt first with
  | error e => rfl
  | ok k => exact hsame k

/-- **Merged chunks leave what the chunks leave.** -/
theorem Kept.acceptAll_mergeChunks (tokens : List Token) (k : Kept) :
    k.acceptAll inspectIdentity receipt (mergeChunks tokens) = k.acceptAll inspectIdentity receipt tokens := by
  have hcons : ∀ (token : Token) (rest : List Token), (∀ k : Kept,
      k.acceptAll inspectIdentity receipt (mergeChunks rest) = k.acceptAll inspectIdentity receipt rest) →
      ∀ k : Kept, k.acceptAll inspectIdentity receipt (token :: mergeChunks rest) =
        k.acceptAll inspectIdentity receipt (token :: rest) := by
    intro token rest ih k
    rw [Kept.acceptAll_cons, Kept.acceptAll_cons]
    cases k.accept inspectIdentity receipt token with
    | error e => rfl
    | ok k => exact ih k
  induction tokens generalizing k with
  | nil => rfl
  | cons token rest ih =>
    cases token with
    | stringChunk a =>
      rw [mergeChunks]
      split
      · rename_i b merged hmerged
        rw [hmerged] at ih
        exact Kept.acceptAll_merged ih (fun k => Kept.accept_append
          (k.metadata.accept_stringChunk a b) (k.tools.accept_stringChunk a b)) k
      · exact hcons _ rest ih k
    | numberChunk a =>
      rw [mergeChunks]
      split
      · rename_i b merged hmerged
        rw [hmerged] at ih
        exact Kept.acceptAll_merged ih (fun k => Kept.accept_append
          (k.metadata.accept_numberChunk a b) (k.tools.accept_numberChunk a b)) k
      · exact hcons _ rest ih k
    | _ =>
      rw [mergeChunks]
      · exact hcons _ rest ih k
      · nofun
      · nofun

end Chunks

end ClawRouter.Inspect
