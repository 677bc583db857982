/-
  Subject:   How many searches a response was billed for (src/worker/responses-hosted-usage.ts).

  The items are objects that a set and two maps share; here they lie in a heap, and a reference is a
  place in it.

  * `invalid`, `accept`, `result`: the three methods.
-/
import ClawRouter.Inspect.Projection

namespace ClawRouter.Inspect

open Utf16 Js

/-! ## 1. Items -/

/-- The searches of a response. -/
structure HostedSearchUsage where
  webSearch : Nat
  complete : Bool
  deriving DecidableEq

def call (value : Option Value) : Option Nat :=
  match record value with
  | none => none
  | some item =>
    match textOf (get item "type") with
    | none => none
    | some type =>
      if type != text "web_search_call" then some 0
      else
        let action := (record (get item "action")).bind (get · "type")
        if isText action "open_page" || isText action "find_in_page" then some 0 else some 1

/-- A search of a stream. -/
structure HostedItem where
  id : Option Text
  index : Option Nat
  count : Nat
  done : Bool

/-- What is kept of the first terminal response: its items by position. -/
structure HostedSnapshot where
  id : Text
  status : Text
  output : List (Option Text × Nat)

/-- What a stream has shown of searches. -/
structure HostedSearch where
  heap : List HostedItem
  items : List Nat
  ids : List (Text × Nat)
  indices : List (Nat × Nat)
  uncertain : Bool
  terminal : Bool
  complete : Bool
  total : Nat
  observed : Bool
  anonymousSearch : Bool
  snapshot : Option HostedSnapshot

def createHostedSearchUsage : HostedSearch := ⟨[], [], [], [], false, false, false, 0, false, false, none⟩

def position (value : Option Value) : Option Nat :=
  match value with
  | some (.num (.finite q)) =>
    if Double.isSafeInteger (.finite q) && 0 ≤ q then some q.num.toNat else none
  | _ => none

def identifier (value : Option Value) : Option Text :=
  (textOf value).filter fun id => id != [] && id.length ≤ 256

def setKey {α β : Type} [BEq α] (map : List (α × β)) (key : α) (value : β) : List (α × β) :=
  if map.any (·.1 == key) then map.map fun e => if e.1 == key then (key, value) else e else
    map ++ [(key, value)]

namespace HostedSearch

def doubt (s : HostedSearch) : HostedSearch := { s with uncertain := true }

def doubtIf (s : HostedSearch) (condition : Bool) : HostedSearch := if condition then s.doubt else s

def item (s : HostedSearch) (reference : Nat) : Option HostedItem := s.heap[reference]?

def update (s : HostedSearch) (reference : Nat) (change : HostedItem → HostedItem) : HostedSearch :=
  { s with heap := s.heap.modify reference change }

def contradicts (item : HostedItem) (id : Option Text) (index : Option Nat) : Bool :=
  item.id.isSome && id.isSome && item.id != id || item.index.isSome && index.isSome && item.index != index

/-- The item gets the id and the index, and the maps find it under them. -/
def name (s : HostedSearch) (reference : Nat) (id : Option Text) (index : Option Nat) : HostedSearch :=
  let s := match id with
    | some id => { s.update reference fun item => { item with id := some id } with ids := setKey s.ids id reference }
    | none => s
  match index with
  | some index =>
    { s.update reference fun item => { item with index := some index } with
      indices := setKey s.indices index reference }
  | none => s

/-- Two items that are seen to be one: the second gives what is done to the first. -/
def unite (s : HostedSearch) (first second : Nat) : HostedSearch :=
  let s := match s.item second with
    | some item => if item.done then s.update first fun f => { f with count := item.count, done := true } else s
    | none => s
  { s with items := s.items.filter (· != second) }

/-- `associate`: the item of an id and an index. -/
def associate (s : HostedSearch) (id index : Option Value) : HostedSearch × Option Nat :=
  if id.isSome && (identifier id).isNone || index.isSome && (position index).isNone then (s.doubt, none)
  else
    let id := identifier id
    let index := position index
    let byId := id.bind (s.ids.lookup ·)
    let byIndex := index.bind (s.indices.lookup ·)
    let found := [byId, byIndex].filterMap fun reference => reference.bind s.item
    if found.any (contradicts · id index) then (s.doubt, none)
    else
      match byId, byIndex with
      | some first, some second =>
        if first = second then (s.name first id index, some first)
        else
          let differ := match s.item first, s.item second with
            | some f, some g => f.done && g.done && f.count != g.count
            | _, _ => false
          if differ then (s.doubt, none) else ((s.unite first second).name first id index, some first)
      | some first, none => (s.name first id index, some first)
      | none, some second => (s.name second id index, some second)
      | none, none =>
        if toolEvidenceLimit ≤ s.items.length then (s.doubt, none)
        else
          let reference := s.heap.length
          let s := { s with heap := s.heap ++ [HostedItem.mk none none 0 false], items :=
            s.items ++ [reference] }
          (s.name reference id index, some reference)

def isSearch (value : Option Value) : Bool :=
  (record value).any fun item => isText (get item "type") "web_search_call"

def observe (s : HostedSearch) (value at_ : Option Value) (done : Bool) : HostedSearch :=
  match record value with
  | none => s.doubt
  | some members =>
    let s := { s with observed := s.observed || isSearch value }
    match call value with
    | none => s.doubt
    | some count =>
      let id := get members "id"
      if id.isNone && at_.isNone then
        -- an anonymous item counts in the terminal response
        if done then { s with anonymousSearch := s.anonymousSearch || count != 0 } else s.doubt
      else
        let (s, reference) := s.associate id at_
        match reference with
        | none => s
        | some reference =>
          let s := s.doubtIf ((s.item reference).any fun item => item.done && done && item.count != count)
          if done then s.update reference fun item => { item with count := count, done := true } else s

def terminalTypes : List String :=
  ["response.completed", "response.incomplete", "response.failed", "response.cancelled"]

def itemTypes : List String := ["response.output_item.added", "response.output_item.done"]

/-- The item of the snapshot that an event names. -/
def selected (output : List (Option Text × Nat)) (index id : Option Value) : Option (Option Text × Nat) :=
  let indexed := (position index).bind (output[·]?)
  let named := (textOf id).bind fun id => output.find? fun item => item.1 == some id
  match indexed <|> named with
  | none => none
  | some item =>
    let otherId := match id with
      | none => false
      | some (.str id) => item.1 != some id
      | some _ => true
    if index.isSome && indexed.isNone || otherId then none else some item

/-- The output of a response is the one of the snapshot. -/
def repeats (output : List Value) (snapshot : List (Option Text × Nat)) : Bool :=
  output.length == snapshot.length && (output.zip snapshot).all fun (item, kept) =>
    (record (some item)).any fun members =>
      let sameId := match get members "id" with
        | none => kept.1.isNone
        | some (.str id) => kept.1 == some id
        | some _ => false
      sameId && call (some item) == some kept.2

/-- `accept` after the first terminal event: contradictions are still noticed. -/
def acceptLater (s : HostedSearch) (final : HostedSnapshot) (value : Members) (sse : Bool) : HostedSearch :=
  let sameText := fun (value : Option Value) (t : Text) => textOf value == some t
  let s := s.doubtIf ((get value "response_id").isSome && !sameText (get value "response_id") final.id)
  let index := get value "output_index"
  let itemId := get value "item_id"
  let s := s.doubtIf (sse && (index.isSome || itemId.isSome) && (selected final.output index itemId).isNone)
  if sse && itemTypes.any (isText (get value "type")) then
    let item := record (get value "item")
    match item, selected final.output index (item.bind (get · "id")) with
    | some item, some found => s.doubtIf (call (some (.obj item)) != some found.2)
    | _, _ => s.doubt
  else if sse && terminalTypes.any (isText (get value "type")) then
    match record (get value "response") with
    | none => s.doubt
    | some response =>
      let output := match get response "output" with
        | some (.arr output) => repeats output final.output
        | _ => false
      s.doubtIf (!sameText (get response "id") final.id || !sameText (get response "status") final.status ||
        !sameText (get value "type") (text "response." ++ final.status) || !output)
  else s

/-- What the loop over the items of a terminal response carries. -/
structure Tally where
  state : HostedSearch
  seen : List Text
  count : Nat

/-- One item of a terminal response, at its position. -/
def tally (t : Tally) (entry : Value × Nat) : Tally :=
  let value := some entry.1
  let s := { t.state with observed := t.state.observed || isSearch value }
  match record value, call value with
  | some members, some next =>
    let id := textOf (get members "id")
    if id.any t.seen.contains then { t with state := s.doubt }
    else
      let found := [s.indices.lookup entry.2, id.bind (s.ids.lookup ·)].filterMap fun reference =>
        reference.bind s.item
      let differs := fun (item : HostedItem) =>
        item.id.isSome && item.id != id || item.index.any (· != entry.2) || item.done && item.count != next
      ⟨s.doubtIf (found.any differs), t.seen ++ id.toList, t.count + next⟩
  | _, _ => { t with state := s.doubt }

def finish (s : HostedSearch) (response : Option Members) (type : Option Value) (sse : Bool) : HostedSearch :=
  let s := { s with terminal := true }
  match response with
  | none => s.doubt
  | some members =>
    match get members "output" with
    | some (.arr output) =>
      if toolEvidenceLimit < output.length then s.doubt
      else
        let t := output.zipIdx.foldl tally ⟨s, [], 0⟩
        let s := t.state
        let missing := fun (item : HostedItem) =>
          match item.index with
          | some index => output.length ≤ index
          | none => item.id.any fun id => !t.seen.contains id
        let s := s.doubtIf ((s.items.filterMap s.item).any missing)
        let s := s.doubtIf (s.anonymousSearch && t.count == 0)
        let id := identifier (get members "id")
        let status := get members "status"
        let complete := !s.uncertain && id.isSome && (sse || isText (get members "object") "response") &&
          (isText status "completed" || isText status "incomplete") &&
          (!sse || isText type "response.completed" || isText type "response.incomplete")
        let kept := output.map fun item =>
          ((record (some item)).bind fun members => textOf (get members "id"), (call (some item)).getD 0)
        { s with
          total := t.count
          complete := complete
          snapshot := if complete then some ⟨id.getD [], (textOf status).getD [], kept⟩ else s.snapshot }
    | _ => s.doubt

def invalid (s : HostedSearch) : HostedSearch := { s with uncertain := true, complete := false }

def accept (s : HostedSearch) (value : Option Value) (sse : Bool) : HostedSearch :=
  match record value with
  | none => s.doubt
  | some members =>
    let type := get members "type"
    if isText type "error" then s.doubt
    else if s.terminal then
      match s.snapshot with
      | none => s
      | some final => s.acceptLater final members sse
    else if sse && itemTypes.any (isText type) then
      s.observe (get members "item") (get members "output_index") (isText type "response.output_item.done")
    else
      let index := get members "output_index"
      let itemId := get members "item_id"
      let s := if sse && (index.isSome || itemId.isSome) then
          let (s, _) := s.associate itemId index
          { s with observed := s.observed || (textOf type).any (startsWith (text "response.web_search_call.")) }
        else s
      let response := if sse then record (get members "response") else some members
      let ended := if sse then terminalTypes.any (isText type)
        else ["completed", "incomplete", "failed", "cancelled"].any (isText (get members "status"))
      if ended then s.finish response type sse else s

def doneCount (s : HostedSearch) : Nat :=
  ((s.items.filterMap s.item).map fun item => if item.done then item.count else 0).sum

def result (s : HostedSearch) (ended : Bool) : Option HostedSearchUsage :=
  if s.observed then
    some ⟨if s.terminal && s.total != 0 then s.total else s.doneCount, ended && s.complete && !s.uncertain⟩
  else none

end HostedSearch

end ClawRouter.Inspect
