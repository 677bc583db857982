/-
  Subject:   `HttpContinuationStore` (src/worker/continuation-store.ts): which owner a response or a
             conversation is bound to, and what is known of the tools that produced it.

  A binding is a row under the digest of an identity, with an owner, a time of expiry and the
  evidence of its producer. A call names one or two keys, and runs in one transaction; a call that
  throws changes nothing. The number of rows is kept beside them, by hand.

  * **`evidence_write_once`**: along every run a binding that has not expired keeps its owner and
    its producer, and its evidence is written once.
-/
import ClawRouter.Http
import ClawRouter.Lib.Keyed
import ClawRouter.Lib.Timed
import Mathlib.Data.List.Dedup

namespace ClawRouter.Continuation

open Keyed Timed Fallible

/-! ## 1. The store -/

def continuationRetentionMs : Int := 30 * 24 * 60 * 60000
def continuationCapacity : Int := 1000000

/-- Whose a continuation is. -/
structure ContinuationOwner where
  providerId : String
  endpointId : String
  grantKey : Option String
  lineage : Option String
  routeSha256 : String
  policyGeneration : String
  deriving DecidableEq

/-- What is known of the tools of a response. -/
inductive ToolKnowledge
  | tokenOnly
  | hostedToolFee
  | hostedToolUsage
  | unknown
  deriving DecidableEq

/-- What prices a continuation, so far or for good. -/
inductive PricingEvidence
  | pending (producerId : String)
  | final (producerId : String) (knowledge : ToolKnowledge)
  deriving DecidableEq

def PricingEvidence.producerId : PricingEvidence → String
  | .pending producerId => producerId
  | .final producerId _ => producerId

/-- The column of the evidence as it is stored. -/
inductive EvidenceColumn
  | null
  | unreadable  -- a text that is no evidence
  | written (evidence : PricingEvidence)
  deriving DecidableEq

def parseEvidence : EvidenceColumn → Option PricingEvidence
  | .written evidence => some evidence
  | _ => none

/-- A row of the table of continuations. -/
structure Binding where
  bindingKey : String
  owner : ContinuationOwner
  expiresAtMs : Int
  pricingEvidence : EvidenceColumn
  backgroundJobId : Option String
  backgroundClosed : Bool
  backgroundStream : Bool
  deriving DecidableEq

/-- What a resolution says of the job of a binding; an empty id is none. -/
def Binding.background (r : Binding) : Option (String × Bool × Bool) :=
  (r.backgroundJobId.filter (· ≠ "")).map fun id => (id, r.backgroundClosed, r.backgroundStream)

/-- The table, and how many rows it has. -/
structure ContinuationStore where
  bindings : Table Binding.bindingKey
  count : Int

/-- A claim on the key of a response. -/
structure ResponseClaim where
  key : String
  producerId : String
  deriving DecidableEq

/-- What is asked of the store. -/
inductive ContinuationAction
  | resolve
  | register
  | qualify
  deriving DecidableEq

/-- The body of a call on the store. -/
structure ContinuationInput where
  action : ContinuationAction
  keys : List String
  owner : Option ContinuationOwner
  responseClaim : Option ResponseClaim
  knowledge : Option ToolKnowledge
  backgroundJobId : Option String

/-- What the owner of the background jobs adds to a registration; `registered` is its callback in
    the same transaction, which may throw. -/
structure BackgroundContext where
  closed : Bool
  retired : Bool
  stream : Bool
  registered : Option HttpError

/-- How a response qualifies. -/
inductive Qualification
  | qualified
  | producerConflict
  | conflict
  | unavailable
  deriving DecidableEq

/-- How a registration ends. -/
inductive Registration
  | stored
  | producerConflict
  | conflict
  | capacity
  deriving DecidableEq

/-- What the store answers. -/
inductive ContinuationReply
  | resolved (owners : List (Option ContinuationOwner)) (evidence : List (Option PricingEvidence))
      (background : List (Option (String × Bool × Bool)))
  | qualification (outcome : Qualification)
  | registration (outcome : Registration) (owned : Option Bool)
  | done
  deriving DecidableEq

def ContinuationReply.rejected : ContinuationReply → Bool
  | .qualification outcome => outcome != .qualified
  | .registration outcome _ => outcome != .stored
  | _ => false

def isDigest (value : String) : Bool := isHex 64 value

def validOwner (owner : ContinuationOwner) : Bool :=
  let segment (item : String) := !item.isEmpty && utf16Length item ≤ 256
  segment owner.providerId && segment owner.endpointId && segment owner.policyGeneration &&
    (owner.grantKey.all fun key => key.startsWith "oauth/" && utf16Length key ≤ 1024) &&
    owner.lineage.all segment && isDigest owner.routeSha256

def invalid : HttpError := ⟨400, "continuation_request_invalid", "invalid continuation authority request"⟩

namespace ContinuationStore

def get (s : ContinuationStore) (key : String) (now : Int) : Option Binding :=
  (s.bindings.find? key).filter fun row => now < row.expiresAtMs

/-- `DELETE … RETURNING`, and the counter goes down by the number of rows. -/
def remove (s : ContinuationStore) (p : Binding → Bool) : ContinuationStore where
  bindings :=
  s.bindings.delete p
  count := s.count - (s.bindings.rows.filter p).length

def expire (s : ContinuationStore) (now : Int) : ContinuationStore :=
  let expired := s.bindings.rows.filter fun row => row.expiresAtMs ≤ now
  let oldest := (expired.mergeSort fun a b => a.expiresAtMs ≤ b.expiresAtMs).take 256
  s.remove fun row => oldest.contains row

def closeBackground (s : ContinuationStore) (id : String) : ContinuationStore :=
  { s with
    bindings := s.bindings.update (fun row => row.backgroundJobId == some id)
      (fun row => { row with backgroundClosed := true }) fun _ => rfl }

/-- `UPDATE http_continuations SET pricing_evidence_json = ? WHERE binding_key = ?`. -/
def writeEvidence (s : ContinuationStore) (key : String) (evidence : PricingEvidence) : ContinuationStore :=
  { s with
    bindings := s.bindings.update (fun row => row.bindingKey == key)
      (fun row => { row with pricingEvidence := .written evidence }) fun _ => rfl }

def insert (s : ContinuationStore) (row : Binding) : ContinuationStore :=
  { s with bindings := s.bindings.insert row }

end ContinuationStore

/-- `qualify`: the producer of a binding tells once what its tools were. -/
def qualify (now : Int) (owner : ContinuationOwner) (claim : ResponseClaim)
    (knowledge : ToolKnowledge) (s : ContinuationStore) : ContinuationStore × Qualification :=
  match s.get claim.key now with
  | none => (s, .unavailable)
  | some row =>
    if row.owner ≠ owner then (s, .conflict)
    else
      match parseEvidence row.pricingEvidence with
      | none => (s, .producerConflict)
      | some evidence =>
        if evidence.producerId ≠ claim.producerId then (s, .producerConflict)
        else
          match evidence with
          | .final _ known =>
            (s, if known = knowledge then .qualified else .producerConflict)
          | .pending producerId =>
            (s.writeEvidence claim.key (.final producerId knowledge), .qualified)

/-- The row that a registration writes under a key. -/
def newBinding (now : Int) (input : ContinuationInput) (owner : ContinuationOwner)
    (context : BackgroundContext) (key : String) : Binding :=
  match input.responseClaim with
  | some claim =>
    if key = claim.key then
      ⟨key, owner, now + continuationRetentionMs, .written (.pending claim.producerId),
        input.backgroundJobId, context.closed, context.stream⟩
    else ⟨key, owner, now + continuationRetentionMs, .null, none, false, false⟩
  | none => ⟨key, owner, now + continuationRetentionMs, .null, none, false, false⟩

/-- The row under a key stands against a registration of another producer. -/
def producerConflict (input : ContinuationInput) (key : String) (row : Binding) : Bool :=
  let claimed := input.responseClaim.any fun claim => claim.key = key
  (claimed && row.backgroundJobId != input.backgroundJobId) ||
    (row.pricingEvidence != .null && (!claimed ||
      (parseEvidence row.pricingEvidence).map PricingEvidence.producerId !=
        input.responseClaim.map ResponseClaim.producerId))

/-- The job of a registration is over, and the binding it claims is not its own. -/
def retiredElsewhere (now : Int) (input : ContinuationInput) (context : BackgroundContext)
    (s : ContinuationStore) : Bool :=
  context.retired && (match input.responseClaim with
    | none => true
    | some claim =>
      (s.get claim.key now).map Binding.backgroundJobId != input.backgroundJobId.map some)

/-- The checks of a registration, before anything is written. -/
def refusal (now : Int) (keys : List String) (owner : ContinuationOwner)
    (input : ContinuationInput) (context : BackgroundContext) (s : ContinuationStore) :
    Option Registration :=
  let existing := keys.filterMap fun key => (s.get key now).map fun row => (key, row)
  if retiredElsewhere now input context s then some .producerConflict
  else if existing.any fun e => e.2.owner ≠ owner then some .conflict
  else if existing.any fun e => producerConflict input e.1 e.2 then some .producerConflict
  else none

/-- The rows of the keys that have expired are deleted first, then the oldest of all that have. -/
def clear (now : Int) (keys : List String) (s : ContinuationStore) : ContinuationStore :=
  (keys.foldl (fun s key =>
    s.remove fun row => row.bindingKey == key && row.expiresAtMs ≤ now) s).expire now

def missing (now : Int) (keys : List String) (s : ContinuationStore) : List String :=
  keys.filter fun key => (s.get key now).isNone

def insertMissing (now : Int) (keys : List String) (owner : ContinuationOwner)
    (input : ContinuationInput) (context : BackgroundContext) (s : ContinuationStore) :
    ContinuationStore :=
  (missing now keys s).foldl (fun s key => s.insert (newBinding now input owner context key))
    (clear now keys s)

/-- A binding to a job that is closed already is closed. -/
def closeRegistered (input : ContinuationInput) (context : BackgroundContext)
    (s : ContinuationStore) : ContinuationStore :=
  match input.backgroundJobId with
  | some id => if context.closed && !id.isEmpty then s.closeBackground id else s
  | none => s

/-- `register`: the keys are bound to the owner, those that are not yet. -/
def register (now : Int) (keys : List String) (owner : ContinuationOwner)
    (input : ContinuationInput) (context : BackgroundContext) (s : ContinuationStore) :
    Answer (ContinuationStore × Registration) :=
  match refusal now keys owner input context s with
  | some outcome => .ok (s, outcome)
  | none =>
    if (clear now keys s).count + (missing now keys s).length > continuationCapacity then
      .ok (clear now keys s, .capacity)
    else
      let stored := closeRegistered input context (insertMissing now keys owner input context s)
      match context.registered with
      | some error => .error error
      | none => .ok ({ stored with count := stored.count + (missing now keys s).length }, .stored)

def resolve (now : Int) (keys : List String) (s : ContinuationStore) : ContinuationReply :=
  let rows := keys.map fun key => s.get key now
  .resolved (rows.map fun row => row.map Binding.owner)
    (rows.map fun row => row.bind fun r => parseEvidence r.pricingEvidence)
    (if rows.any fun row => row.any fun r => r.background.isSome then
      rows.map fun row => row.bind Binding.background
    else [])

/-- The checks of a registration or a qualification; the owner it is for. -/
def authorize (keys : List String) (input : ContinuationInput) : Answer ContinuationOwner := do
  let owner ← demand input.owner invalid
  require (validOwner owner) invalid
  require (input.responseClaim.all fun claim =>
    keys.contains claim.key && isDigest claim.producerId) invalid
  require (input.backgroundJobId.all fun id =>
    id.isEmpty || (input.responseClaim.isSome && isHexAfter "bg_" 32 id)) invalid
  return owner

/-- `handle`, without the actions on compaction witnesses, which have a table of their own. -/
def handle (now : Int) (input : ContinuationInput) (context : BackgroundContext)
    (s : ContinuationStore) : Answer (ContinuationStore × ContinuationReply) := do
  require (1 ≤ input.keys.length && input.keys.length ≤ 2 && input.keys.all isDigest) invalid
  let keys := input.keys.dedup
  match input.action with
  | .resolve => return (s, resolve now keys s)
  | .qualify =>
    let owner ← authorize keys input
    let claim ← demand input.responseClaim invalid
    require (keys.length = 1) invalid
    let knowledge ← demand input.knowledge invalid
    let result := qualify now owner claim knowledge s
    return (result.1, .qualification result.2)
  | .register =>
    let owner ← authorize keys input
    let result ← register now keys owner input context s
    let owned := if result.2 = .stored then
      input.responseClaim.map fun claim =>
        ((result.1.get claim.key now).map Binding.pricingEvidence) != some .null
    else none
    return (result.1, .registration result.2 owned)

/-- A mutation of the store. -/
inductive Op
  | handle (input : ContinuationInput) (context : BackgroundContext)
  | closeBackground (id : String)
  | expire

def exec (now : Int) (s : ContinuationStore) : Op → ContinuationStore × Answer ContinuationReply
  | .handle input context =>
    match handle now input context s with
    | .ok (s', reply) => (s', .ok reply)
    | .error error => (s, .error error)
  | .closeBackground id => (s.closeBackground id, .ok .done)
  | .expire => (s.expire now, .ok .done)

def Step (now : Int) (s : ContinuationStore) (a : Op × Answer ContinuationReply)
    (s' : ContinuationStore) : Prop :=
  exec now s a.1 = (s', a.2)

theorem step_exec {now : Int} {s : ContinuationStore} (op : Op) :
    Step now s (op, (exec now s op).2) (exec now s op).1 := rfl

/-! ## 2. What the statements do to a binding -/

def Counted (s : ContinuationStore) : Prop := s.count = s.bindings.rows.length

section Statements

variable {s : ContinuationStore} {now : Int} {key : String}

theorem get_eq_some {r : Binding} :
    s.get key now = some r ↔ s.bindings.find? key = some r ∧ now < r.expiresAtMs := by
  unfold ContinuationStore.get
  rw [Option.filter_eq_some_iff, decide_eq_true_eq]

theorem get_eq_none : s.get key now = none ↔ ∀ r, s.bindings.find? key = some r → r.expiresAtMs ≤ now := by
  unfold ContinuationStore.get
  rw [Option.filter_eq_none_iff]
  constructor
  · intro h r hr
    have := h r hr
    rw [decide_eq_true_eq] at this
    omega
  · intro h r hr
    have := h r hr
    rw [decide_eq_true_eq]
    omega

theorem get_remove {p : Binding → Bool} (hp : ∀ r ∈ s.bindings.rows, p r = true →
    r.expiresAtMs ≤ now) (key : String) :
    (s.remove p).get key now = s.get key now := by
  unfold ContinuationStore.get ContinuationStore.remove
  rw [Table.find?_delete]
  cases h : s.bindings.find? key with
  | none => rfl
  | some r =>
    by_cases hr : p r = true
    · have hle := hp r (Table.find?_eq_some.mp h).1 hr
      rw [Option.filter_some_neg (by rw [hr]; decide), Option.filter_some_neg]
      · rfl
      · exact decide_eq_false (by omega)
    · rw [Option.filter_some_pos (by rw [Bool.not_eq_true] at hr; rw [hr]; rfl)]

theorem counted_remove (h : Counted s) (p : Binding → Bool) : Counted (s.remove p) := by
  unfold Counted at *
  have hsplit := List.length_eq_length_filter_add (l := s.bindings.rows) p
  show s.count - ((s.bindings.rows.filter p).length : Int) =
    ((s.bindings.rows.filter fun r => !p r).length : Int)
  omega

theorem find?_remove {p : Binding → Bool} {r : Binding} (h : (s.remove p).bindings.find? key = some r) :
    s.bindings.find? key = some r ∧ p r = false := by
  unfold ContinuationStore.remove at h
  rw [Table.find?_delete, Option.filter_eq_some_iff] at h
  exact ⟨h.1, by simpa using h.2⟩

theorem get_expire (key : String) : (s.expire now).get key now = s.get key now := by
  refine get_remove (fun r _ hr => ?_) key
  have hr := List.mem_of_mem_take (List.contains_iff_mem.mp hr)
  rw [List.mem_mergeSort, List.mem_filter, decide_eq_true_eq] at hr
  exact hr.2

theorem counted_expire (h : Counted s) : Counted (s.expire now) := counted_remove h _

theorem filter_live {f : Binding → Binding} (hf : ∀ r, (f r).expiresAtMs = r.expiresAtMs)
    (row : Option Binding) : ((row.map f).filter fun r => now < r.expiresAtMs) =
      (row.filter fun r => now < r.expiresAtMs).map f := by
  cases row with
  | none => rfl
  | some r =>
    rw [Option.map_some, Option.filter_some, Option.filter_some, hf r]
    split <;> rfl

/-- A binding may be told that its job is closed. -/
def Binding.closedBy (r : Binding) (id : String) : Binding :=
  if r.backgroundJobId == some id then { r with backgroundClosed := true } else r

theorem get_closeBackground (id : String) :
    (s.closeBackground id).get key now = (s.get key now).map (·.closedBy id) := by
  unfold ContinuationStore.get ContinuationStore.closeBackground
  rw [Table.find?_update]
  refine filter_live (fun r => ?_) (s.bindings.find? key)
  split <;> rfl

theorem counted_closeBackground (h : Counted s) (id : String) : Counted (s.closeBackground id) := by
  unfold Counted ContinuationStore.closeBackground Table.update at *
  rw [List.length_map]
  exact h

theorem get_writeEvidence (key' : String) (evidence : PricingEvidence) :
    (s.writeEvidence key' evidence).get key now =
      (s.get key now).map fun r => if key = key' then
        { r with pricingEvidence := .written evidence } else r := by
  have e : (s.writeEvidence key' evidence).bindings.find? key = (s.bindings.find? key).map fun r =>
      if key = key' then { r with pricingEvidence := .written evidence } else r := by
    unfold ContinuationStore.writeEvidence
    rw [Table.find?_update]
    cases h : s.bindings.find? key with
    | none => rfl
    | some r =>
      have hk : r.bindingKey = key := (Table.find?_eq_some.mp h).2
      by_cases e : key = key'
      · rw [Option.map_some, Option.map_some, if_pos e, if_pos (by rw [hk, e]; exact beq_self_eq_true _)]
      · rw [Option.map_some, Option.map_some, if_neg e, if_neg (by rw [hk, beq_iff_eq]; exact e)]
  unfold ContinuationStore.get
  rw [e]
  refine filter_live (fun r => ?_) (s.bindings.find? key)
  split <;> rfl

theorem counted_writeEvidence (h : Counted s) (key' : String) (evidence : PricingEvidence) :
    Counted (s.writeEvidence key' evidence) := by
  unfold Counted ContinuationStore.writeEvidence Table.update at *
  rw [List.length_map]
  exact h

theorem find?_insert {row : Binding} (h : s.bindings.find? row.bindingKey = none) (key : String) :
    (s.insert row).bindings.find? key = if row.bindingKey = key then some row else s.bindings.find? key :=
  Table.find?_insert h key

end Statements

/-! ## 3. Registration -/

variable {owner : ContinuationOwner} {input : ContinuationInput}

section Registration

variable {now : Int} {s : ContinuationStore}

section

variable (keys : List String)

theorem get_foldl_remove (s : ContinuationStore) (key : String) :
    (keys.foldl (fun s key => s.remove fun row =>
      row.bindingKey == key && row.expiresAtMs ≤ now) s).get key now = s.get key now := by
  induction keys generalizing s with
  | nil => rfl
  | cons k keys ih =>
    rw [List.foldl_cons, ih]
    refine get_remove (fun r _ hr => ?_) key
    rw [Bool.and_eq_true, decide_eq_true_eq] at hr
    exact hr.2

theorem counted_foldl_remove (s : ContinuationStore) (h : Counted s) :
    Counted (keys.foldl (fun s key => s.remove fun row => row.bindingKey == key && row.expiresAtMs ≤
      now) s) := by
  induction keys generalizing s with
  | nil => exact h
  | cons k keys ih =>
    rw [List.foldl_cons]
    exact ih _ (counted_remove h _)

theorem find?_foldl_remove (s : ContinuationStore) {key : String} {r : Binding}
    (h : (keys.foldl (fun s key => s.remove fun row =>
      row.bindingKey == key && row.expiresAtMs ≤ now) s).bindings.find? key = some r) :
    s.bindings.find? key = some r ∧ (key ∈ keys → now < r.expiresAtMs) := by
  induction keys generalizing s with
  | nil => exact ⟨h, fun hm => absurd hm List.not_mem_nil⟩
  | cons k keys ih =>
    rw [List.foldl_cons] at h
    obtain ⟨hr, hlive⟩ := ih _ h
    obtain ⟨hs, hp⟩ := find?_remove hr
    refine ⟨hs, fun hm => ?_⟩
    rcases List.mem_cons.mp hm with rfl | hm
    · have hk : r.bindingKey = key := (Table.find?_eq_some.mp hs).2
      rw [hk, beq_self_eq_true, Bool.true_and, decide_eq_false_iff_not] at hp
      omega
    · exact hlive hm

theorem get_clear (s : ContinuationStore) (key : String) :
    (clear now keys s).get key now = s.get key now := by
  unfold clear
  rw [get_expire, get_foldl_remove]

theorem counted_clear (h : Counted s) : Counted (clear now keys s) :=
  counted_expire (counted_foldl_remove keys s h)

end

theorem find?_clear {keys : List String} {key : String} (hkey : key ∈ keys)
    (h : s.get key now = none) : (clear now keys s).bindings.find? key = none := by
  cases hr : (clear now keys s).bindings.find? key with
  | none => rfl
  | some r =>
    obtain ⟨hf, -⟩ := find?_remove hr
    obtain ⟨hs, hlive⟩ := find?_foldl_remove keys s hf
    have hle := get_eq_none.mp h r hs
    have := hlive hkey
    omega

theorem insert_all {f : String → Binding} (hf : ∀ key, (f key).bindingKey = key) (keys : List String)
    (s : ContinuationStore) (hkeys : keys.Nodup) (habsent : ∀ key ∈ keys, s.bindings.find? key = none)
    (key : String) : (keys.foldl (fun s key => s.insert (f key)) s).bindings.find? key =
      (if key ∈ keys then some (f key) else s.bindings.find? key) ∧
    (keys.foldl (fun s key => s.insert (f key)) s).bindings.rows.length = s.bindings.rows.length +
      keys.length ∧
    (keys.foldl (fun s key => s.insert (f key)) s).count = s.count := by
  induction keys generalizing s with
  | nil => exact ⟨by rw [if_neg List.not_mem_nil]; rfl, rfl, rfl⟩
  | cons k keys ih =>
    have hk : s.bindings.find? (f k).bindingKey = none := by
      rw [hf]
      exact habsent k List.mem_cons_self
    have hnodup := List.nodup_cons.mp hkeys
    obtain ⟨hfind, hlength, hcount⟩ := ih (s.insert (f k)) hnodup.2 fun x hx => by
      have hne : k ≠ x := by
        rintro rfl
        exact hnodup.1 hx
      rw [find?_insert hk, hf, if_neg hne]
      exact habsent x (List.mem_cons_of_mem k hx)
    rw [List.foldl_cons]
    refine ⟨?_, ?_, hcount⟩
    · rw [hfind, find?_insert hk, hf]
      by_cases e : k = key
      · subst e
        rw [if_neg hnodup.1, if_pos rfl, if_pos List.mem_cons_self]
      · rw [if_neg e]
        by_cases hm : key ∈ keys
        · rw [if_pos hm, if_pos (List.mem_cons_of_mem k hm)]
        · rw [if_neg hm, if_neg fun hc => hm ((List.mem_cons.mp hc).resolve_left (Ne.symm e))]
    · rw [hlength]
      have : (s.insert (f k)).bindings.rows.length = s.bindings.rows.length + 1 :=
        congrArg List.length (Table.rows_insert hk)
      rw [this, List.length_cons]
      omega

/-- Two rows tell the same, but for the mark that the job is closed. -/
structure Binding.Same (r r' : Binding) : Prop where
  owner : r'.owner = r.owner
  expires : r'.expiresAtMs = r.expiresAtMs
  evidence : r'.pricingEvidence = r.pricingEvidence
  job : r'.backgroundJobId = r.backgroundJobId

theorem Binding.Same.refl (r : Binding) : r.Same r := ⟨rfl, rfl, rfl, rfl⟩

theorem same_closedBy (r : Binding) (id : String) : r.Same (r.closedBy id) := by
  unfold Binding.closedBy
  split <;> exact ⟨rfl, rfl, rfl, rfl⟩

structure Stored (now : Int) (keys : List String) (owner : ContinuationOwner)
    (input : ContinuationInput) (context : BackgroundContext) (s s' : ContinuationStore) : Prop where
  bound : ∀ key r, s.get key now = some r → ∃ r', s'.get key now = some r' ∧ r.Same r'
  created : ∀ key, s.get key now = none → key ∈ keys →
    ∃ r', s'.get key now = some r' ∧ (newBinding now input owner context key).Same r'
  other : ∀ key, s.get key now = none → key ∉ keys → s'.get key now = none

theorem newBinding_key (now : Int) (input : ContinuationInput) (owner : ContinuationOwner)
    (context : BackgroundContext) (key : String) :
    (newBinding now input owner context key).bindingKey = key := by
  unfold newBinding
  split
  · split <;> rfl
  · rfl

theorem newBinding_expires (now : Int) (input : ContinuationInput) (owner : ContinuationOwner)
    (context : BackgroundContext) (key : String) :
    (newBinding now input owner context key).expiresAtMs = now + continuationRetentionMs := by
  unfold newBinding
  split
  · split <;> rfl
  · rfl

theorem missing_absent {keys : List String} {k : String} (hk : k ∈ missing now keys s) :
    (clear now keys s).bindings.find? k = none := by
  obtain ⟨hk, hnone⟩ := List.mem_filter.mp hk
  exact find?_clear hk (Option.isNone_iff_eq_none.mp hnone)

theorem insertMissing_spec {keys : List String} (hkeys : keys.Nodup) (owner : ContinuationOwner)
    (input : ContinuationInput) (context : BackgroundContext) (key : String) :
    (insertMissing now keys owner input context s).get key now =
        (if key ∈ keys ∧ s.get key now = none then some
          (newBinding now input owner context key) else s.get key now) ∧
      (insertMissing now keys owner input context s).bindings.rows.length =
        (clear now keys s).bindings.rows.length + (missing now keys s).length ∧
      (insertMissing now keys owner input context s).count = (clear now keys s).count := by
  obtain ⟨hfind, hlength, hcount⟩ := insert_all (newBinding_key now input owner context)
    (missing now keys s) (clear now keys s) (hkeys.filter _) (fun _ hk => missing_absent hk) key
  refine ⟨?_, hlength, hcount⟩
  have hmem : key ∈ missing now keys s ↔ key ∈ keys ∧ s.get key now = none := by
    unfold missing
    rw [List.mem_filter, Option.isNone_iff_eq_none]
  show ((insertMissing now keys owner input context s).bindings.find? key).filter _ = _
  unfold insertMissing
  rw [hfind]
  by_cases hm : key ∈ keys ∧ s.get key now = none
  · rw [if_pos (hmem.mpr hm), if_pos hm, Option.filter_some_pos]
    rw [newBinding_expires]
    refine decide_eq_true ?_
    unfold continuationRetentionMs
    omega
  · rw [if_neg fun h => hm (hmem.mp h), if_neg hm]
    exact get_clear keys s key

theorem closeRegistered_spec (input : ContinuationInput) (context : BackgroundContext)
    (s : ContinuationStore) :
    (∃ f : Binding → Binding, (∀ r, Binding.Same r (f r)) ∧
      ∀ key, (closeRegistered input context s).get key now = (s.get key now).map f) ∧
    (closeRegistered input context s).bindings.rows.length = s.bindings.rows.length ∧
    (closeRegistered input context s).count = s.count := by
  have hsame : (∃ f : Binding → Binding, (∀ r, Binding.Same r (f r)) ∧ ∀ key, s.get key now =
    (s.get key now).map f) ∧
      s.bindings.rows.length = s.bindings.rows.length ∧ s.count = s.count :=
    ⟨⟨id, Binding.Same.refl, fun key => Option.map_id_apply.symm⟩, rfl, rfl⟩
  unfold closeRegistered
  split
  · split
    · rename_i id _ _
      refine ⟨⟨(·.closedBy id), fun r => same_closedBy r id, fun key => get_closeBackground id⟩, ?_, rfl⟩
      exact List.length_map _
    · exact hsame
  · exact hsame

theorem count_clear (keys : List String) (s : ContinuationStore) : (clear now keys s).count ≤ s.count := by
  have hremove : ∀ (s : ContinuationStore) (p : Binding → Bool), (s.remove p).count ≤ s.count := by
    intro s p
    show s.count - ((s.bindings.rows.filter p).length : Int) ≤ s.count
    omega
  have hfold : ∀ s : ContinuationStore, (keys.foldl (fun s key => s.remove fun row =>
      row.bindingKey == key && row.expiresAtMs ≤ now) s).count ≤ s.count := by
    induction keys with
    | nil => exact fun s => Int.le_refl _
    | cons k keys ih => exact fun s => Int.le_trans (ih _) (hremove s _)
  exact Int.le_trans (hremove _ _) (hfold s)

theorem register_spec {keys : List String}
    {context : BackgroundContext} {s' : ContinuationStore} {outcome : Registration}
    (h : register now keys owner input context s = .ok (s', outcome)) (hkeys : keys.Nodup)
    (hcounted : Counted s) (hcapacity : s.count ≤ continuationCapacity) :
    Counted s' ∧ s'.count ≤ continuationCapacity ∧
      (outcome ≠ .stored ∧ (∀ key, s'.get key now = s.get key now) ∨
        outcome = .stored ∧ Stored now keys owner input context s s') := by
  unfold register at h
  split at h
  · rename_i refused hrefusal
    cases h
    refine ⟨hcounted, hcapacity, .inl ⟨?_, fun _ => rfl⟩⟩
    rintro rfl
    unfold refusal at hrefusal
    dsimp only at hrefusal
    split at hrefusal
    · cases hrefusal
    split at hrefusal
    · cases hrefusal
    split at hrefusal <;> cases hrefusal
  · split at h
    · cases h
      exact ⟨counted_clear keys hcounted, Int.le_trans (count_clear keys s) hcapacity, .inl
        ⟨nofun, get_clear keys s⟩⟩
    · rename_i hroom
      split at h
      · cases h
      · cases h
        have hclear : (clear now keys s).count = (clear now keys s).bindings.rows.length :=
          counted_clear keys hcounted
        obtain ⟨⟨f, hf, hget⟩, hrows, hcount⟩ := @closeRegistered_spec now input context
          (insertMissing now keys owner input context s)
        obtain ⟨-, hlength, hcleared⟩ := @insertMissing_spec now s keys hkeys owner input context ""
        have hinserted := fun key => (@insertMissing_spec now s keys hkeys owner input context key).1
        refine ⟨?_, ?_, .inr ⟨rfl, fun key r hr => ?_, fun key hr hkey => ?_, fun key hr hkey => ?_⟩⟩
        · show _ + _ = ((closeRegistered input context _).bindings.rows.length : Int)
          rw [hcount, hcleared, hclear, hrows, hlength]
          omega
        · show _ + _ ≤ continuationCapacity
          rw [hcount, hcleared]
          omega
        · refine ⟨f r, (hget key).trans ?_, hf r⟩
          rw [hinserted, if_neg fun hc => ?_, hr]
          · rfl
          · rw [hr] at hc
            cases hc.2
        · refine ⟨_, (hget key).trans ?_, hf _⟩
          rw [hinserted, if_pos ⟨hkey, hr⟩]
          rfl
        · refine (hget key).trans ?_
          rw [hinserted, if_neg fun hc => hkey hc.1, hr]
          rfl

end Registration

/-! ## 4. One operation -/

/-- **Everything an operation can do to the binding of a key** that has not expired. -/
inductive Change (now : Int) (key : String) (op : Op) (reply : Answer ContinuationReply) :
    Option Binding → Option Binding → Prop
  | absent : Change now key op reply none none
  | same {r : Binding} : Change now key op reply (some r) (some r)
  | closed {r r' : Binding} (agrees : r.Same r')
      (answered : ∀ answer, reply = .ok answer → answer.rejected = false) :
      Change now key op reply (some r) (some r')
  | qualified {r : Binding} {input : ContinuationInput} {context : BackgroundContext}
      {producerId : String} {knowledge : ToolKnowledge} (called : op = .handle input context)
      (claimed : input.responseClaim = some ⟨key, producerId⟩)
      (known : input.knowledge = some knowledge)
      (pending : r.pricingEvidence = .written (.pending producerId))
      (answered : reply = .ok (.qualification .qualified)) :
      Change now key op reply (some r)
        (some { r with pricingEvidence := .written (.final producerId knowledge) })
  | registered {r : Binding} {input : ContinuationInput} {context : BackgroundContext}
      {owner : ContinuationOwner} {owned : Option Bool} (called : op = .handle input context)
      (named : key ∈ input.keys) (owner_eq : input.owner = some owner)
      (agrees : (newBinding now input owner context key).Same r)
      (answered : reply = .ok (.registration .stored owned)) :
      Change now key op reply none (some r)

theorem Change.refl (now : Int) (key : String) (op : Op) (reply : Answer ContinuationReply)
    (row : Option Binding) : Change now key op reply row row := by
  cases row with
  | none => exact .absent
  | some r => exact .same

section Exec

variable {now : Int} {s s' : ContinuationStore}

theorem authorize_ok {keys : List String} (h : authorize keys input = .ok owner) :
    input.owner = some owner := by
  unfold authorize at h
  simp only [bind_ok, demand_ok, pure_ok] at h
  obtain ⟨_, e, _, _, _, _, _, _, rfl⟩ := h
  exact e

theorem qualify_spec {context : BackgroundContext} {claim : ResponseClaim} {knowledge : ToolKnowledge}
    (hclaim : input.responseClaim = some claim) (hknowledge : input.knowledge = some knowledge)
    (hcounted : Counted s) (hcapacity : s.count ≤ continuationCapacity) :
    Counted (qualify now owner claim knowledge s).1 ∧
      (qualify now owner claim knowledge s).1.count ≤ continuationCapacity ∧
      ∀ key, Change now key (.handle input context)
        (.ok (.qualification (qualify now owner claim knowledge s).2)) (s.get key now)
        ((qualify now owner claim knowledge s).1.get key now) := by
  have hsame : ∀ outcome : Qualification, Counted s ∧ s.count ≤ continuationCapacity ∧
      ∀ key, Change now key (.handle input context) (.ok (.qualification outcome)) (s.get key now)
        (s.get key now) := fun outcome => ⟨hcounted, hcapacity, fun key => .refl ..⟩
  unfold qualify
  split
  · exact hsame _
  · rename_i row hrow
    split
    · exact hsame _
    split
    · exact hsame _
    rename_i evidence hevidence
    split
    · exact hsame _
    rename_i hproducer
    split
    · exact hsame _
    · rename_i producerId
      refine ⟨counted_writeEvidence hcounted _ _, hcapacity, fun key => ?_⟩
      rw [get_writeEvidence]
      by_cases e : key = claim.key
      · subst e
        rw [hrow, Option.map_some, if_pos rfl]
        have hpending : row.pricingEvidence = .written (.pending producerId) := by
          unfold parseEvidence at hevidence
          split at hevidence
          · rename_i e
            cases hevidence
            exact e
          · cases hevidence
        have hid : claim.producerId = producerId := (not_not.mp hproducer).symm
        refine .qualified rfl ?_ hknowledge hpending rfl
        rw [hclaim, ← hid]
      · simp only [if_neg e, Option.map_id']
        exact .refl ..

theorem exec_binding {op : Op} {reply : Answer ContinuationReply}
    (h : exec now s op = (s', reply)) (hcounted : Counted s) (hcapacity : s.count ≤ continuationCapacity) :
    Counted s' ∧ s'.count ≤ continuationCapacity ∧ ∀ key, Change now key op reply (s.get key now)
      (s'.get key now) := by
  cases op with
  | closeBackground id =>
    cases h
    refine ⟨counted_closeBackground hcounted id, hcapacity, fun key => ?_⟩
    rw [get_closeBackground]
    cases s.get key now with
    | none => exact .absent
    | some r =>
      refine .closed (same_closedBy r id) fun answer e => ?_
      cases e
      rfl
  | expire =>
    cases h
    refine ⟨counted_expire hcounted, ?_, fun key => ?_⟩
    · have : (s.expire now).count ≤ s.count := by
        show s.count - _ ≤ s.count
        omega
      exact Int.le_trans this hcapacity
    · rw [get_expire]
      exact .refl ..
  | handle input context =>
    unfold exec at h
    dsimp only at h
    split at h
    · rename_i s₁ answer hok
      cases h
      unfold handle at hok
      rw [bind_ok] at hok
      obtain ⟨_, -, hok⟩ := hok
      split at hok
      · cases hok
        exact ⟨hcounted, hcapacity, fun key => .refl ..⟩
      · simp only [bind_ok, demand_ok, pure_ok] at hok
        obtain ⟨owner, howner, claim, hclaim, _, -, knowledge, hknowledge, e⟩ := hok
        cases e
        exact qualify_spec hclaim hknowledge hcounted hcapacity
      · simp only [bind_ok, pure_ok] at hok
        obtain ⟨owner, howner, ⟨s₁, outcome⟩, hregister, e⟩ := hok
        cases e
        obtain ⟨hc, hcap, hrows⟩ := register_spec hregister (List.nodup_dedup _) hcounted hcapacity
        refine ⟨hc, hcap, fun key => ?_⟩
        rcases hrows with ⟨-, hrows⟩ | ⟨rfl, hrows⟩
        · rw [hrows key]
          exact .refl ..
        · cases hr : s.get key now with
          | none =>
            by_cases hkey : key ∈ input.keys.dedup
            · obtain ⟨r', hr', hsame⟩ := hrows.created key hr hkey
              rw [hr']
              exact .registered rfl (List.mem_dedup.mp hkey) (authorize_ok howner) hsame rfl
            · rw [hrows.other key hr hkey]
              exact .absent
          | some r =>
            obtain ⟨r', hr', hsame⟩ := hrows.bound key r hr
            rw [hr']
            refine .closed hsame fun answer e => ?_
            cases e
            rfl
    · cases h
      exact ⟨hcounted, hcapacity, fun key => .refl ..⟩

end Exec

/-! ## 5. Along a run -/

/-- What a binding is after some operations: its owner and its producer are the same, and its
    evidence is the same, or was written once by a qualification of that producer. -/
structure WrittenOnce (tr : List (Int × (Op × Answer ContinuationReply))) (r r' : Binding) :
    Prop where
  owner : r'.owner = r.owner
  expires : r'.expiresAtMs = r.expiresAtMs
  producer : (parseEvidence r'.pricingEvidence).map PricingEvidence.producerId =
    (parseEvidence r.pricingEvidence).map PricingEvidence.producerId
  evidence : r'.pricingEvidence = r.pricingEvidence ∨ ∃ producerId knowledge,
    r.pricingEvidence = .written (.pending producerId) ∧
    r'.pricingEvidence = .written (.final producerId knowledge) ∧
    ∃ e ∈ tr, ∃ input context, e.2 = (.handle input context, .ok (.qualification .qualified)) ∧
      input.responseClaim = some ⟨r.bindingKey, producerId⟩ ∧ input.knowledge = some knowledge

section Run

variable {now t t' : Int} {s s' : ContinuationStore} {a : Op × Answer ContinuationReply}
  {tr : List (Int × (Op × Answer ContinuationReply))}

theorem WrittenOnce.step {r x : Binding} {row : Option Binding} (h : WrittenOnce tr r x)
    (hc : Change now r.bindingKey a.1 a.2 (some x) row) :
    ∃ r', row = some r' ∧ WrittenOnce (tr ++ [(now, a)]) r r' := by
  have hlater : ∀ {y : Binding}, y.owner = x.owner → y.expiresAtMs = x.expiresAtMs →
      y.pricingEvidence = x.pricingEvidence → WrittenOnce (tr ++ [(now, a)]) r y := by
    intro y ho he hp
    refine ⟨ho.trans h.owner, he.trans h.expires, by rw [hp]; exact h.producer, ?_⟩
    rw [hp]
    refine h.evidence.imp id ?_
    rintro ⟨p, k, hr, hx, e, he, hq⟩
    exact ⟨p, k, hr, hx, e, List.mem_append_left _ he, hq⟩
  cases hc with
  | same => exact ⟨x, rfl, hlater rfl rfl rfl⟩
  | closed agrees => exact ⟨_, rfl, hlater agrees.owner agrees.expires agrees.evidence⟩
  | @qualified _ input context producerId knowledge called claimed known pending answered =>
    have hr : r.pricingEvidence = .written (.pending producerId) := by
      rcases h.evidence with e | ⟨p, k, -, hx, -⟩
      · rw [← e]
        exact pending
      · rw [hx] at pending
        cases pending
    refine ⟨_, rfl, h.owner, h.expires, ?_, .inr ⟨producerId, knowledge, hr, rfl, (now, a),
      List.mem_append_right _ (List.mem_singleton_self _), input, context, ?_, claimed, known⟩⟩
    · rw [hr]
      rfl
    · exact Prod.ext called answered

/-- What is written once, in every step and run. -/
structure EvidenceWriteOnce (t : Int) (s : ContinuationStore) : Prop where
  /-- A binding that has not expired keeps its owner and its producer, and its evidence is written
      once, by a qualification of that producer. -/
  kept : ∀ tr t' s', Run Step s t tr t' s' → ∀ key r, s.bindings.find? key = some r →
    t' < r.expiresAtMs → ∃ r', s'.bindings.find? key = some r' ∧ WrittenOnce tr r r'
  /-- A binding is created by a registration, without evidence unless it is the claimed one. -/
  created : ∀ now op reply s', t ≤ now → Step now s (op, reply) s' → ∀ key r,
    s.get key now = none → s'.get key now = some r →
      ∃ input context owned owner, op = .handle input context ∧
        reply = .ok (.registration .stored owned) ∧ key ∈ input.keys ∧ input.owner = some owner ∧
        r.owner = owner ∧
        ((∃ producerId, input.responseClaim = some ⟨key, producerId⟩ ∧
            r.pricingEvidence = .written (.pending producerId)) ∨
          (∀ claim, input.responseClaim = some claim → claim.key ≠ key) ∧
            r.pricingEvidence = .null)
  /-- A call that is turned down changes no binding. -/
  rejected : ∀ now op answer s', t ≤ now → Step now s (op, .ok answer) s' →
    answer.rejected = true → ∀ key, s'.get key now = s.get key now
  /-- The counter is the number of rows. -/
  counted : s.count = s.bindings.rows.length ∧ s.count ≤ continuationCapacity

theorem counted_run {t₀ : Int} {s₀ : ContinuationStore} (hcounted : Counted s₀)
    (hcapacity : s₀.count ≤ continuationCapacity) (h : Run Step s₀ t₀ tr t s) :
    Counted s ∧ s.count ≤ continuationCapacity := by
  refine h.invariant (I := fun _ s => Counted s ∧ s.count ≤ continuationCapacity) ⟨hcounted, hcapacity⟩ ?_
  rintro t t' s ⟨op, reply⟩ s' - ⟨hc, hcap⟩ hs
  obtain ⟨hc', hcap', -⟩ := exec_binding hs hc hcap
  exact ⟨hc', hcap'⟩

theorem binding_run (hcounted : Counted s) (hcapacity : s.count ≤ continuationCapacity)
    (h : Run Step s t tr t' s') {key : String} {r : Binding}
    (hr : s.bindings.find? key = some r) (hlive : t' < r.expiresAtMs) :
    ∃ r', s'.bindings.find? key = some r' ∧ WrittenOnce tr r r' := by
  have hkey : ∀ {s : ContinuationStore} {x : Binding}, s.bindings.find? key = some x →
      x.bindingKey = key := fun h => (Table.find?_eq_some.mp h).2
  have h0 := hkey hr
  suffices hI : Counted s' ∧ s'.count ≤ continuationCapacity ∧ (t' < r.expiresAtMs →
      ∃ r', s'.bindings.find? key = some r' ∧ WrittenOnce tr r r') from hI.2.2 hlive
  refine h.invariant_along (I := fun tr t s => Counted s ∧ s.count ≤ continuationCapacity ∧
    (t < r.expiresAtMs → ∃ r', s.bindings.find? key = some r' ∧ WrittenOnce tr r r'))
    ⟨hcounted, hcapacity, fun _ => ⟨r, hr, rfl, rfl, rfl, .inl rfl⟩⟩ ?_
  rintro tr t t' s ⟨op, reply⟩ s' ht ⟨hc, hcap, hI⟩ hs
  obtain ⟨hc', hcap', hchange⟩ := exec_binding hs hc hcap
  refine ⟨hc', hcap', fun hlive => ?_⟩
  obtain ⟨x, hx, hw⟩ := hI (by omega)
  have hget : s.get key t' = some x := get_eq_some.mpr ⟨hx, by rw [hw.expires]; exact hlive⟩
  have hstep := hchange key
  rw [hget, ← h0] at hstep
  obtain ⟨r', hr', hw'⟩ := hw.step (a := (op, reply)) hstep
  rw [h0] at hr'
  exact ⟨r', (get_eq_some.mp hr').1, hw'⟩

/-- **The evidence of a response is written once**, in every run of the store. -/
theorem evidence_write_once {t₀ : Int} {s₀ : ContinuationStore}
    (hcounted : s₀.count = s₀.bindings.rows.length) (hcapacity : s₀.count ≤ continuationCapacity)
    (h : Run Step s₀ t₀ tr t s) : EvidenceWriteOnce t s := by
  obtain ⟨hc, hcap⟩ := counted_run hcounted hcapacity h
  refine ⟨fun tr t' s' hrun key r => binding_run hc hcap hrun, fun now op reply s' _ hs key r hr hr' => ?_,
    fun now op answer s' _ hs hrejected key => ?_, hc, hcap⟩
  · have hchange := (exec_binding hs hc hcap).2.2 key
    rw [hr, hr'] at hchange
    cases hchange with
    | @registered _ input context owner owned called named owner_eq agrees answered =>
      refine ⟨input, context, owned, owner, called, answered, named, owner_eq, ?_⟩
      rw [agrees.owner, agrees.evidence]
      unfold newBinding
      split
      · rename_i claim hclaim
        split
        · rename_i e
          exact ⟨rfl, .inl ⟨claim.producerId, by rw [hclaim, e], rfl⟩⟩
        · rename_i e
          refine ⟨rfl, .inr ⟨fun claim' hclaim' => ?_, rfl⟩⟩
          rw [hclaim] at hclaim'
          cases hclaim'
          exact Ne.symm e
      · rename_i hclaim
        refine ⟨rfl, .inr ⟨fun claim' hclaim' => ?_, rfl⟩⟩
        rw [hclaim] at hclaim'
        cases hclaim'
  · have hchange := (exec_binding hs hc hcap).2.2 key
    generalize hr : s.get key now = row at hchange
    generalize hr' : s'.get key now = row' at hchange
    cases hchange with
    | absent => rfl
    | same => rfl
    | closed _ answered =>
      rw [answered answer rfl] at hrejected
      cases hrejected
    | qualified _ _ _ _ answered =>
      cases answered
      cases hrejected
    | registered _ _ _ _ answered =>
      cases answered
      cases hrejected

/-- A response that is registered with its producer, and qualified by it. -/
theorem evidence_write_once_qualified : ∃ tr s, Run Step ⟨Table.empty, 0⟩ 0 tr 5 s ∧
      (s.bindings.rows.map Binding.pricingEvidence) =
        [.written (.final (String.ofList (List.replicate 64 'b')) .tokenOnly)] ∧ EvidenceWriteOnce 5 s := by
  let key := String.ofList (List.replicate 64 'a')
  let claim : ResponseClaim := ⟨key, String.ofList (List.replicate 64 'b')⟩
  let owner : ContinuationOwner := ⟨"openai", "responses", none, none, key, "1"⟩
  let context : BackgroundContext := ⟨false, false, false, none⟩
  have h0 : Run Step (⟨Table.empty, 0⟩ : ContinuationStore) 0 [] 0 _ := .start
  have h1 := h0.next (show (0 : Int) ≤ 0 by omega)
    (step_exec (.handle ⟨.register, [key], some owner, some claim, none, none⟩ context))
  have h2 := h1.next (show (0 : Int) ≤ 5 by omega)
    (step_exec (.handle ⟨.qualify, [key], some owner, some claim, some .tokenOnly, none⟩ context))
  exact ⟨_, _, h2, by decide +kernel, evidence_write_once rfl (by decide) h2⟩

end Run

end ClawRouter.Continuation
