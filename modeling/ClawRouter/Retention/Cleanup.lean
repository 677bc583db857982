/-
  Subject:   The sweeps over the archive of request content (src/worker/content-cleanup.ts) and the reads of it
             (`readRetainedContent`, `retainedContentDeadline`, `contentKey` of src/worker/content-retention.ts).

  A sweep waits for a listing and for a delete. Meanwhile objects are written, other sweeps are asked for, and the
  owner may crash, after which a delete that it sent can still arrive. A cursor stands for the last key of its page
  in the order of keys; `number` is `Number` of a text.

  * `Sound`: what every step keeps; **`step_sound`**, and so every run (`sound`);
  * **`read_kept`**: what a read returns;
  * **`retained_content_expires`**: all of it, over every run; `rewritten_deleted`: why an object written again is
    told apart.
-/
import ClawRouter.Lib.Trace
import ClawRouter.Lib.Value

namespace ClawRouter.Retention

open Utf16

/-! ## 1. Objects -/

def retentionPeriodMs : Int := 30 * 86400000

/-- An object of the archive; the version is the number of writes before its own. -/
structure StoredObject where
  key : Text
  version : Nat
  uploaded : Int
  expiresAt : Option Text
  body : Text
  deriving DecidableEq

def isContent (key : Text) : Bool := Js.startsWith (Js.text "v1/") key

section Deadline

variable (number : Text → Option Rat)

def retainedContentDeadline (object : StoredObject) : Rat :=
  let maximum : Rat := object.uploaded + retentionPeriodMs
  match object.expiresAt.map Js.trim with
  | none => maximum
  | some declared =>
    if declared = [] then maximum
    else
      match number declared with
      | none => maximum
      | some expiry => min expiry maximum

end Deadline

/-! ## 2. Sweeps -/

/-- The checkpoint of the sweeps. -/
structure CleanupState where
  cursor : Option Text
  cycleStartedAt : Int
  lastAttemptAt : Int
  lastCompletedAt : Option Int
  scanned : Nat
  deleted : Nat
  failed : Bool

/-- What `list` answers. -/
structure Page where
  objects : List StoredObject
  truncated : Bool
  cursor : Option Text

def given (cursor : Option Text) : Option Text := cursor.filter (· ≠ [])

def Page.next (page : Page) : Option Text := if page.truncated then page.cursor else none

/-- The cursor advances, or there is none to come. -/
def Page.advances (page : Page) (cursor : Option Text) : Bool :=
  !page.truncated || ((given page.cursor).isSome && page.cursor ≠ cursor)

/-- A sweep that was asked for. `mark` and `listed` are the numbers of writes when its cycle began and when its
    page was listed. -/
inductive Operation
  | waiting
  | listing (previous : CleanupState) (now : Int) (mark : Nat)
  | deleting (previous : CleanupState) (now : Int) (mark : Nat) (page : Page) (expired : List Text)
    (listed : Nat)

/-- The archive and the owner of its sweeps. `row` is the checkpoint and `chain` the sweeps of the
    owner that have
    not settled; `orphans` are deletes of an owner that crashed. `cycleMark` and `completed` tell
    the writes before
    the current cycle and, with the time, before the last one that was completed. -/
structure World where
  archive : List StoredObject
  writes : Nat
  row : Option CleanupState
  chain : List Operation
  orphans : List (List Text × Nat)
  clock : Int
  cycleMark : Nat
  completed : Option (Nat × Int)

def initialState (now : Int) : CleanupState := ⟨none, now, now, none, 0, 0, false⟩

def cycleStart (previous : CleanupState) (now : Int) : Int :=
  if (given previous.cursor).isSome then previous.cycleStartedAt else now

def checkpoint (previous : CleanupState) (now : Int) (page : Page) (expired : List Text)
    (doneAt : Int) : CleanupState where
  cursor :=
  page.next
  cycleStartedAt := cycleStart previous now
  lastAttemptAt := now
  lastCompletedAt := if page.next.isSome then previous.lastCompletedAt else some doneAt
  scanned := (if (given previous.cursor).isSome then previous.scanned else 0) + page.objects.length
  deleted := (if (given previous.cursor).isSome then previous.deleted else 0) + expired.length
  failed := false

namespace World

def put (w : World) (key : Text) (uploaded : Int) (expiresAt : Option Text) (body : Text) : World :=
  { w with
    archive := w.archive.filter (·.key ≠ key) ++ [⟨key, w.writes, uploaded, expiresAt, body⟩]
    writes := w.writes + 1 }

def remove (w : World) (keys : List Text) : World := { w with archive := w.archive.filter (·.key ∉ keys) }

def startSweep (w : World) (rest : List Operation) (now : Int) : World :=
  let previous := w.row.getD (initialState now)
  { w with
    chain := .listing previous now (if (given previous.cursor).isSome then w.cycleMark else w.writes) :: rest
    clock := now }

def complete (w : World) (chain : List Operation) (previous : CleanupState) (now : Int) (mark : Nat)
    (page : Page)
    (expired : List Text) (doneAt : Int) : World :=
  { w with
    row := some (checkpoint previous now page expired doneAt)
    chain := chain
    clock := doneAt
    cycleMark := mark
    completed := if page.next.isSome then w.completed else some (mark, cycleStart previous now) }

def fail (w : World) (chain : List Operation) (previous : CleanupState) (now : Int) : World :=
  { w with row := some { previous with lastAttemptAt := now, failed := true }, chain := chain }

end World

def expiredKeys (number : Text → Option Rat) (page : Page) (checkedAt : Int) : List Text :=
  (page.objects.filter fun object => retainedContentDeadline number object ≤ checkedAt).map (·.key)

section Steps

/- `keyLe` is the order of keys, and `last` the last key of the page a cursor ends. -/
variable (number : Text → Option Rat) (keyLe : Text → Text → Bool) (last : Text → Text)

/-- At or before the end of the page of a cursor. -/
def seen (cursor : Option Text) (key : Text) : Bool :=
  match cursor with
  | none => false
  | some cursor => keyLe key (last cursor)

/-- What `list` may answer: the objects under the prefix between two cursors, or to the end. -/
def Lists (archive : List StoredObject) (cursor : Option Text) (page : Page) : Prop :=
  ∀ object, object ∈ page.objects ↔ object ∈ archive ∧ isContent object.key = true ∧
    seen keyLe last cursor object.key = false ∧
      (page.truncated = true → seen keyLe last page.cursor object.key = true)

/-- A step of the archive or its owner. -/
inductive Event
  | upload (key : Text)
  | fetch
  | start
  | list
  | delete
  | error
  | crash
  | late

/-- The steps of the archive and its owner. -/
inductive Step : World → Event → World → Prop
  | upload {w : World} {key : Text} {uploaded : Int} {expiresAt : Option Text} {body : Text} :
      Step w (.upload key) (w.put key uploaded expiresAt body)
  | fetch {w : World} : Step w .fetch { w with chain := w.chain ++ [.waiting] }
  -- an operation waits for the one before it to settle
  | start {w : World} {rest : List Operation} {now : Int} :
      w.chain = .waiting :: rest → w.clock ≤ now → Step w .start (w.startSweep rest now)
  | list {w : World} {before after : List Operation} {previous : CleanupState} {now : Int}
    {mark : Nat} {page : Page}
      {checkedAt : Int} :
      w.chain = before ++ .listing previous now mark :: after → Lists keyLe last w.archive
        (given previous.cursor) page →
      page.advances previous.cursor = true → w.clock ≤ checkedAt → expiredKeys number page checkedAt ≠ [] →
      Step w .list
        { w with
          chain := before ++ .deleting previous now mark page (expiredKeys number page checkedAt)
            w.writes :: after
          clock := checkedAt }
  | listNone {w : World} {before after : List Operation} {previous : CleanupState} {now : Int}
    {mark : Nat} {page : Page}
      {checkedAt doneAt : Int} :
      w.chain = before ++ .listing previous now mark :: after → Lists keyLe last w.archive
        (given previous.cursor) page →
      page.advances previous.cursor = true → w.clock ≤ checkedAt → expiredKeys number page checkedAt = [] →
      checkedAt ≤ doneAt → Step w .list (w.complete (before ++ after) previous now mark page [] doneAt)
  | delete {w : World} {before after : List Operation} {previous : CleanupState} {now : Int}
    {mark listed : Nat}
      {page : Page} {expired : List Text} {doneAt : Int} :
      w.chain = before ++ .deleting previous now mark page expired listed :: after → w.clock ≤ doneAt →
      Step w .delete ((w.remove expired).complete (before ++ after) previous now mark page expired doneAt)
  -- the listing fails, or its cursor does not advance
  | listError {w : World} {before after : List Operation} {previous : CleanupState} {now : Int} {mark : Nat} :
      w.chain = before ++ .listing previous now mark :: after →
      Step w .error (w.fail (before ++ after) previous now)
  -- the delete fails, after part of it was done
  | deleteError {w : World} {before after : List Operation} {previous : CleanupState} {now : Int}
    {mark listed : Nat}
      {page : Page} {expired gone : List Text} :
      w.chain = before ++ .deleting previous now mark page expired listed :: after → gone ⊆ expired →
      Step w .error ((w.remove gone).fail (before ++ after) previous now)
  | crash {w : World} :
      Step w .crash
        { w with
          chain := []
          orphans := w.orphans ++ w.chain.flatMap fun operation =>
            match operation with
            | .deleting _ _ _ _ expired listed => [(expired, listed)]
            | _ => [] }
  | late {w : World} {keys gone : List Text} {listed : Nat} :
      (keys, listed) ∈ w.orphans → gone ⊆ keys → Step w .late (w.remove gone)

end Steps

/-! ## 3. What every step keeps -/

variable {w w' : World} {now : Int} {previous : CleanupState}

section Sound

variable {number : Text → Option Rat} {keyLe : Text → Text → Bool} {last : Text → Text}

/-- What is in a later archive was in the earlier one, or was written since. -/
structure Grows (w w' : World) : Prop where
  writes : w.writes ≤ w'.writes
  clock : w.clock ≤ w'.clock
  archive : ∀ object ∈ w'.archive, object ∈ w.archive ∨ w.writes ≤ object.version

variable (number)

/-- A delete of keys that were expired when they were listed. -/
structure RequestSound (w : World) (keys : List Text) (listed : Nat) : Prop where
  bounded : listed ≤ w.writes
  content : ∀ key ∈ keys, isContent key = true
  expired : ∀ object ∈ w.archive, object.key ∈ keys → object.version < listed →
    retainedContentDeadline number object ≤ w.clock

/-- The objects that were expired when a cycle began. -/
def Due (w : World) (mark : Nat) (began : Int) (object : StoredObject) : Prop :=
  object ∈ w.archive ∧ isContent object.key = true ∧ object.version < mark ∧
    retainedContentDeadline number object ≤ began

/-- A cycle that has not come past what is due. -/
structure Remaining (w : World) (mark : Nat) (began : Int) (left : Text → Prop) : Prop where
  bounded : mark ≤ w.writes
  past : began ≤ w.clock
  due : ∀ object, Due number w mark began object → left object.key

variable {number}

theorem Grows.due (h : Grows w w') {mark : Nat} (hmark : mark ≤ w.writes) {began : Int}
    {object : StoredObject} (hdue : Due number w' mark began object) : Due number w mark began object := by
  obtain ⟨hin, hcontent, hversion, hdeadline⟩ := hdue
  exact ⟨(h.archive object hin).resolve_right (by omega), hcontent, hversion, hdeadline⟩

theorem RequestSound.grow (hgrows : Grows w w') {keys : List Text} {listed : Nat}
    (h : RequestSound number w keys listed) : RequestSound number w' keys listed where
  bounded := h.bounded.trans hgrows.writes
  content := h.content
  expired := fun object hin hkey hversion => by
    have hlisted := h.bounded
    have hold := (hgrows.archive object hin).resolve_right (by omega)
    exact (h.expired object hold hkey hversion).trans (Int.cast_le.mpr hgrows.clock)

theorem Remaining.grow (hgrows : Grows w w') {mark : Nat} {began : Int} {left : Text → Prop}
    (h : Remaining number w mark began left) : Remaining number w' mark began left where
  bounded := h.bounded.trans hgrows.writes
  past := h.past.trans hgrows.clock
  due := fun object hdue => h.due object (hgrows.due h.bounded hdue)

variable (number keyLe last)

def OperationSound (w : World) : Operation → Prop
  | .waiting => True
  | .listing previous now mark =>
    previous = w.row.getD (initialState now) ∧
      Remaining number w mark (cycleStart previous now) fun key =>
        seen keyLe last (given previous.cursor) key = false
  | .deleting previous now mark page expired listed =>
    previous = w.row.getD (initialState now) ∧ RequestSound number w expired listed ∧
      (page.truncated = true → (given page.cursor).isSome = true) ∧
      Remaining number w mark (cycleStart previous now) fun key =>
        key ∈ expired ∨ (page.truncated = true ∧ seen keyLe last page.cursor key = false)

/-- What every step keeps. -/
structure Sound (w : World) : Prop where
  keys : ∀ a ∈ w.archive, ∀ b ∈ w.archive, a.key = b.key → a = b
  versions : ∀ object ∈ w.archive, object.version < w.writes
  serial : ∀ operation ∈ w.chain.tail, operation = .waiting
  operations : ∀ operation ∈ w.chain, OperationSound number keyLe last w operation
  orphans : ∀ keys listed, (keys, listed) ∈ w.orphans → RequestSound number w keys listed
  row : ∀ state, w.row = some state → (given state.cursor).isSome = true →
    Remaining number w w.cycleMark state.cycleStartedAt fun key =>
      seen keyLe last (given state.cursor) key = false
  completed : ∀ mark began, w.completed = some (mark, began) → Remaining number w mark began fun _ => False

variable {number keyLe last}

theorem OperationSound.grow (hgrows : Grows w w') (hrow : w'.row = w.row) {operation : Operation}
    (h : OperationSound number keyLe last w operation) : OperationSound number keyLe last w' operation := by
  cases operation with
  | waiting => trivial
  | listing previous now mark =>
    obtain ⟨hprevious, hremaining⟩ := h
    exact ⟨by rw [hrow]; exact hprevious, hremaining.grow hgrows⟩
  | deleting previous now mark page expired listed =>
    obtain ⟨hprevious, hrequest, hcursor, hremaining⟩ := h
    exact ⟨by rw [hrow]; exact hprevious, hrequest.grow hgrows, hcursor, hremaining.grow hgrows⟩

theorem Sound.head (h : Sound number keyLe last w) {before after : List Operation} {operation : Operation}
    (hchain : w.chain = before ++ operation :: after) (hruns : operation ≠ .waiting) :
    before = [] ∧ ∀ other ∈ after, other = .waiting := by
  have hserial := h.serial
  rw [hchain] at hserial
  cases before with
  | nil => exact ⟨rfl, hserial⟩
  | cons first before =>
    exact absurd (hserial operation (List.mem_append_right _ List.mem_cons_self)) hruns

theorem Sound.keep (h : Sound number keyLe last w) (hgrows : Grows w w')
    (hkeys : ∀ a ∈ w'.archive, ∀ b ∈ w'.archive, a.key = b.key → a = b)
    (hversions : ∀ object ∈ w'.archive, object.version < w'.writes)
      (hserial : ∀ operation ∈ w'.chain.tail, operation = .waiting)
    (hoperations : ∀ operation ∈ w'.chain, OperationSound number keyLe last w' operation)
    (horphans : ∀ keys listed, (keys, listed) ∈ w'.orphans → RequestSound number w' keys listed)
    (hrow : w'.row = w.row) (hmark : w'.cycleMark = w.cycleMark) (hcompleted : w'.completed = w.completed) :
    Sound number keyLe last w' where
  keys := hkeys
  versions := hversions
  serial := hserial
  operations := hoperations
  orphans := horphans
  row := fun state hstate hgiven => by
    rw [hrow] at hstate
    rw [hmark]
    exact (h.row state hstate hgiven).grow hgrows
  completed := fun mark began hdone => by
    rw [hcompleted] at hdone
    exact (h.completed mark began hdone).grow hgrows

theorem grows_put (w : World) (key : Text) (uploaded : Int) (expiresAt : Option Text) (body : Text) :
    Grows w (w.put key uploaded expiresAt body) := by
  refine ⟨Nat.le_succ _, le_rfl, fun object hin => ?_⟩
  rcases List.mem_append.mp hin with hin | hin
  · exact .inl (List.mem_filter.mp hin).1
  · rw [List.mem_singleton.mp hin]
    exact .inr le_rfl

theorem grows_remove (w : World) (keys : List Text) : Grows w (w.remove keys) :=
  ⟨le_rfl, le_rfl, fun _ hin => .inl (List.mem_filter.mp hin).1⟩

theorem start_sound (h : Sound number keyLe last w) {rest : List Operation}
    (hchain : w.chain = .waiting :: rest) (hclock : w.clock ≤ now) :
    Sound number keyLe last (w.startSweep rest now) := by
  have hgrows : Grows w (w.startSweep rest now) := ⟨le_rfl, hclock, fun _ hin => .inl hin⟩
  have hrest : ∀ operation ∈ rest, operation = .waiting := by
    have hserial := h.serial
    rwa [hchain] at hserial
  refine h.keep hgrows h.keys h.versions hrest ?_
    (fun keys listed hin => (h.orphans keys listed hin).grow hgrows) rfl rfl rfl
  intro operation hin
  rcases List.mem_cons.mp hin with rfl | hin
  · refine ⟨rfl, ?_⟩
    cases hgiven : (given (w.row.getD (initialState now)).cursor).isSome with
    | true =>
      cases hrow : w.row with
      | none =>
        rw [hrow] at hgiven
        cases hgiven
      | some state =>
        rw [hrow, Option.getD_some] at hgiven
        have hremaining := (h.row state hrow hgiven).grow hgrows
        unfold cycleStart
        rw [Option.getD_some, hgiven, if_pos rfl, if_pos rfl]
        exact hremaining
    | false =>
      unfold cycleStart
      rw [hgiven, if_neg Bool.false_ne_true, if_neg Bool.false_ne_true]
      have hnone : given (w.row.getD (initialState now)).cursor = none := by
        rw [← Option.not_isSome_iff_eq_none, hgiven]
        exact Bool.false_ne_true
      rw [hnone]
      exact ⟨le_rfl, le_rfl, fun _ _ => rfl⟩
  · rw [hrest operation hin]
    trivial

theorem listed_remaining {mark : Nat} {page : Page} {checkedAt : Int}
    (h : Remaining number w mark (cycleStart previous now) fun key => seen keyLe last
      (given previous.cursor) key = false)
    (hlists : Lists keyLe last w.archive (given previous.cursor) page) (hclock : w.clock ≤ checkedAt) :
    ∀ object, Due number w mark (cycleStart previous now) object →
      object.key ∈ expiredKeys number page checkedAt ∨
        (page.truncated = true ∧ seen keyLe last page.cursor object.key = false) := by
  intro object hdue
  have hleft := h.due object hdue
  obtain ⟨hin, hcontent, -, hdeadline⟩ := hdue
  by_cases hlater : page.truncated = true ∧ seen keyLe last page.cursor object.key = false
  · exact .inr hlater
  · refine .inl (List.mem_map.mpr ⟨object, List.mem_filter.mpr
      ⟨(hlists object).mpr ⟨hin, hcontent, hleft, ?_⟩, ?_⟩, rfl⟩)
    · intro htruncated
      rw [← Bool.not_eq_false]
      exact fun hnot => hlater ⟨htruncated, hnot⟩
    · exact decide_eq_true (hdeadline.trans (Int.cast_le.mpr (h.past.trans hclock)))

theorem listed_request {cursor : Option Text} {page : Page} {checkedAt : Int}
    (hlists : Lists keyLe last w.archive cursor page)
    (hunique : ∀ a ∈ w.archive, ∀ b ∈ w.archive, a.key = b.key → a = b) :
    (∀ key ∈ expiredKeys number page checkedAt, isContent key = true) ∧
      ∀ object ∈ w.archive, object.key ∈ expiredKeys number page checkedAt →
        retainedContentDeadline number object ≤ checkedAt := by
  constructor
  · intro key hkey
    obtain ⟨object, hin, rfl⟩ := List.mem_map.mp hkey
    exact ((hlists object).mp (List.mem_filter.mp hin).1).2.1
  · intro object hin hkey
    obtain ⟨found, hfound, hsame⟩ := List.mem_map.mp hkey
    obtain ⟨hpage, hexpired⟩ := List.mem_filter.mp hfound
    obtain rfl := hunique found ((hlists found).mp hpage).1 object hin hsame
    exact of_decide_eq_true hexpired

theorem Sound.put (h : Sound number keyLe last w) (key : Text) (uploaded : Int) (expiresAt : Option Text)
    (body : Text) : Sound number keyLe last (w.put key uploaded expiresAt body) := by
  have hgrows := grows_put w key uploaded expiresAt body
  refine h.keep hgrows (fun a ha b hb hsame => ?_) (fun object hin => ?_) h.serial
    (fun operation hin => (h.operations operation hin).grow hgrows rfl)
    (fun keys listed hin => (h.orphans keys listed hin).grow hgrows) rfl rfl rfl
  · have hother : ∀ object ∈ w.archive.filter (·.key ≠ key), object.key ≠ key := fun object hin =>
      of_decide_eq_true (List.mem_filter.mp hin).2
    rcases List.mem_append.mp ha with ha | ha
    · rcases List.mem_append.mp hb with hb | hb
      · exact h.keys a (List.mem_filter.mp ha).1 b (List.mem_filter.mp hb).1 hsame
      · rw [List.mem_singleton.mp hb] at hsame
        exact absurd hsame (hother a ha)
    · rcases List.mem_append.mp hb with hb | hb
      · rw [List.mem_singleton.mp ha] at hsame
        exact absurd hsame.symm (hother b hb)
      · rw [List.mem_singleton.mp ha, List.mem_singleton.mp hb]
  · rcases List.mem_append.mp hin with hin | hin
    · exact Nat.lt_succ_of_lt (h.versions object (List.mem_filter.mp hin).1)
    · rw [List.mem_singleton.mp hin]
      exact Nat.lt_succ_self _

theorem Sound.remove (h : Sound number keyLe last w) (keys : List Text) :
    Sound number keyLe last (w.remove keys) := by
  have hgrows := grows_remove w keys
  exact h.keep hgrows (fun a ha b hb => h.keys a (List.mem_filter.mp ha).1 b (List.mem_filter.mp hb).1)
    (fun object hin => h.versions object (List.mem_filter.mp hin).1) h.serial
    (fun operation hin => (h.operations operation hin).grow hgrows rfl)
    (fun keys listed hin => (h.orphans keys listed hin).grow hgrows) rfl rfl rfl

theorem Sound.complete {v : World} (h : Sound number keyLe last v) {rest : List Operation}
    (hrest : ∀ operation ∈ rest, operation = .waiting) {mark : Nat} {page : Page}
    (hcursor : page.truncated = true → (given page.cursor).isSome = true)
    (hremaining : Remaining number v mark (cycleStart previous now) fun key =>
      page.truncated = true ∧ seen keyLe last page.cursor key = false)
    (expired : List Text) {doneAt : Int} (hclock : v.clock ≤ doneAt) :
    Sound number keyLe last (v.complete rest previous now mark page expired doneAt) := by
  have hgrows : Grows v (v.complete rest previous now mark page expired doneAt) :=
    ⟨le_rfl, hclock, fun _ hin => .inl hin⟩
  refine ⟨h.keys, h.versions, fun operation hin => hrest operation
    (List.mem_of_mem_tail hin), fun operation hin => ?_,
    fun keys listed hin => (h.orphans keys listed hin).grow hgrows, fun state hstate hgiven =>
      ?_, fun mark' began hdone => ?_⟩
  · rw [hrest operation hin]
    trivial
  · obtain rfl := Option.some.inj hstate
    have hafter := hremaining.grow hgrows
    refine ⟨hafter.bounded, hafter.past, fun object hdue => ?_⟩
    obtain ⟨htruncated, hleft⟩ := hafter.due object hdue
    have hnext : given page.next = page.cursor := by
      unfold Page.next
      rw [htruncated, if_pos rfl]
      have hsome := hcursor htruncated
      cases hc : page.cursor with
      | none => rfl
      | some cursor =>
        rw [hc] at hsome
        by_cases hempty : cursor = []
        · subst hempty
          exact absurd hsome (by decide)
        · exact Option.filter_some_pos (decide_eq_true hempty)
    show seen keyLe last (given page.next) object.key = false
    rw [hnext]
    exact hleft
  · have hdone' : (if page.next.isSome = true then v.completed else some (mark, cycleStart previous now)) =
        some (mark', began) := hdone
    split at hdone'
    · exact (h.completed mark' began hdone').grow hgrows
    · rename_i hend
      cases hdone'
      have hafter := hremaining.grow hgrows
      refine ⟨hafter.bounded, hafter.past, fun object hdue => ?_⟩
      obtain ⟨htruncated, -⟩ := hafter.due object hdue
      refine hend ?_
      unfold Page.next
      rw [htruncated, if_pos rfl]
      have hsome := hcursor htruncated
      cases hc : page.cursor with
      | none =>
        rw [hc] at hsome
        cases hsome
      | some cursor => rfl

theorem Sound.fail {v : World} (h : Sound number keyLe last v) {rest : List Operation}
    (hrest : ∀ operation ∈ rest, operation = .waiting)
    (hprevious : previous = v.row.getD (initialState now)) :
    Sound number keyLe last (v.fail rest previous now) := by
  have hgrows : Grows v (v.fail rest previous now) := ⟨le_rfl, le_rfl, fun _ hin => .inl hin⟩
  refine ⟨h.keys, h.versions, fun operation hin => hrest operation
    (List.mem_of_mem_tail hin), fun operation hin => ?_,
    fun keys listed hin => (h.orphans keys listed hin).grow hgrows, fun state hstate hgiven => ?_,
    fun mark began hdone => (h.completed mark began hdone).grow hgrows⟩
  · rw [hrest operation hin]
    trivial
  · obtain rfl := Option.some.inj hstate
    cases hrow : v.row with
    | none =>
      rw [hprevious, hrow] at hgiven
      cases hgiven
    | some state =>
      rw [hrow, Option.getD_some] at hprevious
      subst hprevious
      exact (h.row previous hrow hgiven).grow hgrows

/-- **Every step keeps it.** -/
theorem step_sound {event : Event} (hstep : Step number keyLe last w event w')
    (h : Sound number keyLe last w) : Sound number keyLe last w' := by
  cases hstep with
  | upload => exact h.put _ _ _ _
  | fetch =>
    have hgrows : Grows w { w with chain := w.chain ++ [.waiting] } := ⟨le_rfl, le_rfl, fun _ hin => .inl hin⟩
    refine h.keep hgrows h.keys h.versions (fun operation hin => ?_) (fun operation hin => ?_)
      (fun keys listed hin => (h.orphans keys listed hin).grow hgrows) rfl rfl rfl
    · cases hchain : w.chain with
      | nil =>
        rw [hchain] at hin
        cases hin
      | cons first rest =>
        have hserial := h.serial
        rw [hchain] at hin hserial
        rcases List.mem_append.mp hin with hin | hin
        · exact hserial operation hin
        · exact List.mem_singleton.mp hin
    · rcases List.mem_append.mp hin with hin | hin
      · exact (h.operations operation hin).grow hgrows rfl
      · rw [List.mem_singleton.mp hin]
        trivial
  | start hchain hclock => exact start_sound h hchain hclock
  | @list before after previous now mark page checkedAt hchain hlists hadvances hclock hsome =>
    obtain ⟨rfl, hafter⟩ := h.head hchain nofun
    have hoperation := h.operations _ (by rw [hchain]; exact List.mem_cons_self)
    obtain ⟨hprevious, hremaining⟩ := hoperation
    obtain ⟨hcontent, hexpired⟩ := listed_request hlists h.keys
    have hgrows : Grows w { w with
        chain := [] ++ .deleting previous now mark page (expiredKeys number page checkedAt) w.writes :: after
        clock := checkedAt } := ⟨le_rfl, hclock, fun _ hin => .inl hin⟩
    refine h.keep hgrows h.keys h.versions hafter (fun operation hin => ?_)
      (fun keys listed hin => (h.orphans keys listed hin).grow hgrows) rfl rfl rfl
    rcases List.mem_cons.mp hin with rfl | hin
    · refine ⟨hprevious, ⟨le_rfl, hcontent, fun object hin hkey _ => hexpired object hin
        hkey⟩, fun htruncated => ?_,
        ⟨hremaining.bounded, hremaining.past.trans hclock, fun object hdue =>
          listed_remaining hremaining hlists hclock object hdue⟩⟩
      unfold Page.advances at hadvances
      rw [htruncated, Bool.not_true, Bool.false_or, Bool.and_eq_true] at hadvances
      exact hadvances.1
    · rw [hafter operation hin]
      trivial
  | @listNone before after previous now mark page checkedAt doneAt hchain hlists hadvances hclock
    hnone hdone =>
    obtain ⟨rfl, hafter⟩ := h.head hchain nofun
    have hoperation := h.operations _ (by rw [hchain]; exact List.mem_cons_self)
    obtain ⟨-, hremaining⟩ := hoperation
    refine h.complete hafter (fun htruncated => ?_)
      ⟨hremaining.bounded, hremaining.past, fun object hdue => ?_⟩ []
      (hclock.trans hdone)
    · unfold Page.advances at hadvances
      rw [htruncated, Bool.not_true, Bool.false_or, Bool.and_eq_true] at hadvances
      exact hadvances.1
    · rcases listed_remaining hremaining hlists hclock object hdue with hin | hlater
      · rw [hnone] at hin
        cases hin
      · exact hlater
  | @delete before after previous now mark listed page expired doneAt hchain hclock =>
    obtain ⟨rfl, hafter⟩ := h.head hchain nofun
    have hoperation := h.operations _ (by rw [hchain]; exact List.mem_cons_self)
    obtain ⟨-, -, hcursor, hremaining⟩ := hoperation
    refine (h.remove expired).complete hafter hcursor
      ⟨hremaining.bounded, hremaining.past, fun object hdue => ?_⟩
      expired hclock
    obtain ⟨hin, hrest⟩ := hdue
    obtain ⟨hin, hkept⟩ := List.mem_filter.mp hin
    exact (hremaining.due object ⟨hin, hrest⟩).resolve_left (of_decide_eq_true hkept)
  | @listError before after previous now mark hchain =>
    obtain ⟨rfl, hafter⟩ := h.head hchain nofun
    have hoperation := h.operations _ (by rw [hchain]; exact List.mem_cons_self)
    exact h.fail hafter hoperation.1
  | @deleteError before after previous now mark listed page expired gone hchain hgone =>
    obtain ⟨rfl, hafter⟩ := h.head hchain nofun
    have hoperation := h.operations _ (by rw [hchain]; exact List.mem_cons_self)
    exact (h.remove gone).fail hafter hoperation.1
  | crash =>
    have hmore : ∀ {orphans : List (List Text × Nat)}, Grows w { w with chain := [], orphans := orphans } :=
      ⟨le_rfl, le_rfl, fun _ hin => .inl hin⟩
    refine h.keep hmore h.keys h.versions (List.forall_mem_nil _) (List.forall_mem_nil _)
      (fun keys listed hin => ?_) rfl rfl rfl
    rcases List.mem_append.mp hin with hin | hin
    · exact (h.orphans keys listed hin).grow hmore
    · obtain ⟨operation, hoperation, hin⟩ := List.mem_flatMap.mp hin
      cases operation with
      | waiting | listing previous now mark => cases hin
      | deleting previous now mark page expired listed' =>
        cases List.mem_singleton.mp hin
        exact RequestSound.grow hmore (h.operations _ hoperation).2.1
  | late hin hgone => exact h.remove _

/-! ## 4. Single steps -/

/-- A delete of a key was sent, of a page that was listed after so many writes. -/
def Requested (w : World) (key : Text) (listed : Nat) : Prop :=
  (∃ previous now mark page expired, Operation.deleting previous now mark page expired listed ∈
    w.chain ∧ key ∈ expired) ∨
    ∃ keys, (keys, listed) ∈ w.orphans ∧ key ∈ keys

theorem requested_sound (h : Sound number keyLe last w) {key : Text} {listed : Nat}
    (hrequested : Requested w key listed) : isContent key = true ∧
      ∀ object ∈ w.archive, object.key = key → object.version < listed →
        retainedContentDeadline number object ≤ w.clock := by
  have hsound : ∃ keys, RequestSound number w keys listed ∧ key ∈ keys := by
    rcases hrequested with ⟨previous, now, mark, page, expired, hin, hkey⟩ | ⟨keys, hin, hkey⟩
    · exact ⟨expired, (h.operations _ hin).2.1, hkey⟩
    · exact ⟨keys, h.orphans keys listed hin, hkey⟩
  obtain ⟨keys, hrequest, hkey⟩ := hsound
  refine ⟨hrequest.content key hkey, fun object hin hsame hversion => ?_⟩
  rw [← hsame] at hkey
  exact hrequest.expired object hin hkey hversion

theorem Requested.of_chain {key : Text} {listed : Nat} (h : Requested w' key listed)
    (horphans : w'.orphans = w.orphans)
    (hchain : ∀ previous now mark page expired, Operation.deleting previous now mark page expired
      listed ∈ w'.chain →
      Operation.deleting previous now mark page expired listed ∈ w.chain) : Requested w key listed := by
  rcases h with ⟨previous, now, mark, page, expired, hin, hkey⟩ | ⟨keys, hin, hkey⟩
  · exact .inl ⟨previous, now, mark, page, expired, hchain previous now mark page expired hin, hkey⟩
  · rw [horphans] at hin
    exact .inr ⟨keys, hin, hkey⟩

theorem subset_chain {chain before after : List Operation} {operation : Operation}
    (hchain : chain = before ++ operation :: after) : before ++ after ⊆ chain := by
  rw [hchain]
  exact ((List.Sublist.refl before).append (List.sublist_cons_self operation after)).subset

/-- A step asks only for keys that were asked for, or that its listing found expired. -/
theorem requested_step {event : Event} (hstep : Step number keyLe last w event w') {key : Text} {listed : Nat}
    (h : Requested w' key listed) : Requested w key listed ∨ (event = .list ∧ w.writes = listed ∧
      ∃ object ∈ w.archive, object.key = key ∧ retainedContentDeadline number object ≤ w'.clock) := by
  cases hstep with
  | upload | late => exact .inl h
  | fetch =>
    refine .inl (h.of_chain rfl fun previous now mark page expired hin => ?_)
    rcases List.mem_append.mp hin with hin | hin
    · exact hin
    · cases List.mem_singleton.mp hin
  | start hchain =>
    refine .inl (h.of_chain rfl fun previous now mark page expired hin => ?_)
    rw [hchain]
    rcases List.mem_cons.mp hin with hnew | hin
    · cases hnew
    · exact List.mem_cons_of_mem _ hin
  | @list before after previous now mark page checkedAt hchain hlists hadvances hclock hsome =>
    rcases h with ⟨previous', now', mark', page', expired', hin, hkey⟩ | horphan
    · rcases List.mem_append.mp hin with hin | hin
      · exact .inl (.inl ⟨previous', now', mark', page', expired',
          subset_chain hchain (List.mem_append_left _ hin), hkey⟩)
      · rcases List.mem_cons.mp hin with hnew | hin
        · cases hnew
          obtain ⟨object, hobject, rfl⟩ := List.mem_map.mp hkey
          obtain ⟨hpage, hexpired⟩ := List.mem_filter.mp hobject
          exact .inr ⟨rfl, rfl, object, ((hlists object).mp hpage).1, rfl, of_decide_eq_true hexpired⟩
        · exact .inl (.inl ⟨previous', now', mark', page', expired',
            subset_chain hchain (List.mem_append_right _ hin), hkey⟩)
    · exact .inl (.inr horphan)
  | listNone hchain | delete hchain | listError hchain | deleteError hchain =>
    exact .inl (h.of_chain rfl fun _ _ _ _ _ hin => subset_chain hchain hin)
  | crash =>
    rcases h with ⟨previous, now, mark, page, expired, hin, -⟩ | ⟨keys, hin, hkey⟩
    · cases hin
    · rcases List.mem_append.mp hin with hin | hin
      · exact .inl (.inr ⟨keys, hin, hkey⟩)
      · obtain ⟨operation, hoperation, hin⟩ := List.mem_flatMap.mp hin
        cases operation with
        | waiting | listing previous now mark => cases hin
        | deleting previous now mark page expired listed' =>
          cases List.mem_singleton.mp hin
          exact .inl (.inl ⟨previous, now, mark, page, keys, hoperation, hkey⟩)

theorem gone_requested {event : Event} (hstep : Step number keyLe last w event w') {object : StoredObject}
    (hin : object ∈ w.archive) (hgone : object ∉ w'.archive) :
    event = .upload object.key ∨ ∃ listed, Requested w object.key listed := by
  have hremoved : ∀ {keys : List Text}, object ∉ (w.remove keys).archive → object.key ∈ keys := by
    intro keys hnot
    by_contra hkept
    exact hnot (List.mem_filter.mpr ⟨hin, decide_eq_true hkept⟩)
  cases hstep with
  | @upload key uploaded expiresAt body =>
    left
    by_contra hne
    refine hgone (List.mem_append_left _ (List.mem_filter.mpr ⟨hin, decide_eq_true fun hsame => hne ?_⟩))
    rw [hsame]
  | fetch | start | list | listNone | listError | crash => exact absurd hin hgone
  | @delete before after previous now mark listed page expired doneAt hchain hclock =>
    refine .inr ⟨listed, .inl ⟨previous, now, mark, page, expired, ?_, hremoved hgone⟩⟩
    rw [hchain]
    exact List.mem_append_right _ List.mem_cons_self
  | @deleteError before after previous now mark listed page expired gone hchain hsub =>
    refine .inr ⟨listed, .inl ⟨previous, now, mark, page, expired, ?_, hsub (hremoved hgone)⟩⟩
    rw [hchain]
    exact List.mem_append_right _ List.mem_cons_self
  | @late keys gone listed horphan hsub => exact .inr ⟨listed, .inr ⟨keys, horphan, hsub (hremoved hgone)⟩⟩

def World.cursor (w : World) : Option Text := w.row.bind (·.cursor)

theorem fail_cursor {chain : List Operation}
    (hprevious : previous = w.row.getD (initialState now)) :
    (w.fail chain previous now).cursor = w.cursor := by
  subst hprevious
  unfold World.cursor World.fail
  cases w.row <;> rfl

theorem failed_keeps_cursor {event : Event} (hstep : Step number keyLe last w event w')
    (h : Sound number keyLe last w) (hfailed : event = .error ∨ event = .crash) : w'.cursor = w.cursor := by
  cases hstep with
  | @listError before after previous now mark hchain =>
    have hoperation := h.operations (.listing previous now mark)
      (by rw [hchain]; exact List.mem_append_right _ List.mem_cons_self)
    exact fail_cursor hoperation.1
  | @deleteError before after previous now mark listed page expired gone hchain hsub =>
    have hoperation := h.operations (.deleting previous now mark page expired listed)
      (by rw [hchain]; exact List.mem_append_right _ List.mem_cons_self)
    have hrow : previous = (w.remove gone).row.getD (initialState now) := hoperation.1
    exact fail_cursor hrow
  | crash => rfl
  | upload | fetch | start | list | listNone | delete | late => rcases hfailed with h | h <;> cases h

end Sound

/-! ## 5. Reads -/

/-- A byte that `encodeURIComponent` leaves as it is. -/
def isUnreserved (b : UInt8) : Bool :=
  let n := b.toNat
  (48 ≤ n && n ≤ 57) || (65 ≤ n && n ≤ 90) || (97 ≤ n && n ≤ 122) ||
    [0x2d, 0x5f, 0x2e, 0x21, 0x7e, 0x2a, 0x27, 0x28, 0x29].contains b

def hexDigit (n : Nat) : UInt16 := UInt16.ofNat (if n < 10 then 48 + n else 55 + n)

/-- `encodeURIComponent`, which throws where a surrogate stands alone. -/
def encodeURIComponent (t : Text) : Option Text :=
  if (points t).any isLone then none
  else some ((encode t).flatMap fun b =>
    if isUnreserved b then [UInt16.ofNat b.toNat] else
      [0x25, hexDigit (b.toNat / 16), hexDigit (b.toNat % 16)])

def contentKey (tenant ref : Text) : Option Text := do
  let tenant ← encodeURIComponent tenant
  let ref ← encodeURIComponent ref
  return Js.text "v1/" ++ tenant ++ Js.text "/" ++ ref ++ Js.text ".json"

section Reads

/- `parse` is `JSON.parse`. -/
variable (number : Text → Option Rat) (parse : Text → Option Js.Value)

/-- The record of a body, where it is the one that was asked for and is not expired. -/
def readable (tenant ref : Text) (object : StoredObject) (now : Int) : Option Js.Members := do
  let record ← Js.record (parse object.body)
  if Js.isText (Js.get record "version") "clawrouter.retained-request.v1" = false ∨
      Js.textOf (Js.get record "tenantId") ≠ some tenant ∨ Js.textOf (Js.get record "contentRef") ≠
        some ref then none
  else
    match Js.get record "expiresAtMs" with
    | some (.num (.finite expiry)) =>
      if min expiry (retainedContentDeadline number object) ≤ now then none else some record
    | _ => none

/-- `readRetainedContent`: the object at one time, the clock at a later one. -/
def readRetainedContent (archive : List StoredObject) (tenant ref : Text) (now : Int) : Option Js.Members := do
  let key ← contentKey tenant ref
  let object ← archive.find? (·.key = key)
  readable number parse tenant ref object now

/-- **What is read** is a record of this tenant and reference, before it and its object expire. -/
theorem read_kept {archive : List StoredObject} {tenant ref : Text} {record : Js.Members}
    (h : readRetainedContent number parse archive tenant ref now = some record) :
    Js.textOf (Js.get record "tenantId") = some tenant ∧ Js.textOf (Js.get record "contentRef") = some ref ∧
      ∃ object ∈ archive, contentKey tenant ref = some object.key ∧ ∃ expiry,
        Js.get record "expiresAtMs" = some (.num (.finite expiry)) ∧
          (now : Rat) < expiry ∧ (now : Rat) < retainedContentDeadline number object := by
  obtain ⟨key, hkey, h⟩ := Option.bind_eq_some_iff.mp h
  obtain ⟨object, hfound, h⟩ := Option.bind_eq_some_iff.mp h
  obtain ⟨members, hmembers, h⟩ := Option.bind_eq_some_iff.mp h
  have hsame := List.find?_some hfound
  rw [decide_eq_true_eq] at hsame
  split at h
  · cases h
  · rename_i hidentity
    rw [not_or, not_or, not_not, not_not] at hidentity
    split at h
    · rename_i expiry hexpiry
      split at h
      · cases h
      · rename_i hnow
        cases h
        obtain ⟨hrecord, hobject⟩ := lt_min_iff.mp (not_le.mp hnow)
        exact ⟨hidentity.2.1, hidentity.2.2, object, List.mem_of_find?_eq_some hfound, by
          rw [hsame]; exact hkey,
          expiry, hexpiry, hrecord, hobject⟩
    · cases h

end Reads

/-! ## 6. Runs -/

/-- An archive before the first sweep. -/
structure Fresh (w : World) : Prop where
  keys : ∀ a ∈ w.archive, ∀ b ∈ w.archive, a.key = b.key → a = b
  versions : ∀ object ∈ w.archive, object.version < w.writes
  row : w.row = none
  chain : w.chain = []
  orphans : w.orphans = []
  completed : w.completed = none

section Runs

variable (number : Text → Option Rat) (keyLe : Text → Text → Bool) (last : Text → Text)

theorem Fresh.sound (h : Fresh w) : Sound number keyLe last w where
  keys := h.keys
  versions := h.versions
  serial := by rw [h.chain]; exact List.forall_mem_nil _
  operations := by rw [h.chain]; exact List.forall_mem_nil _
  orphans := fun keys listed hin => by
    rw [h.orphans] at hin
    cases hin
  row := fun state hrow => by
    rw [h.row] at hrow
    cases hrow
  completed := fun mark began hcompleted => by
    rw [h.completed] at hcompleted
    cases hcompleted

variable {number keyLe last}

theorem sound {w₀ : World} {events : List Event} (h : Trace.Run (Step number keyLe last) w₀ events w)
    (hfresh : Fresh w₀) : Sound number keyLe last w :=
  h.invariant (hfresh.sound number keyLe last) fun _ _ _ hs hstep => step_sound hstep hs

variable (number keyLe last) in
/-- In the run a listing, after so many writes, found an object of this key expired. -/
def FoundExpired (w₀ : World) (events : List Event) (key : Text) (listed : Nat) : Prop :=
  ∃ before after v v', events = before ++ .list :: after ∧ Trace.Run (Step number keyLe last) w₀ before v ∧
    Step number keyLe last v .list v' ∧ v.writes = listed ∧
      ∃ object ∈ v.archive, object.key = key ∧ retainedContentDeadline number object ≤ v'.clock

theorem requested_found {w₀ : World} {events : List Event} (h : Trace.Run (Step number keyLe last) w₀ events w)
    (hfresh : Fresh w₀) {key : Text} {listed : Nat} (hrequested : Requested w key listed) :
    FoundExpired number keyLe last w₀ events key listed := by
  induction h with
  | start =>
    rcases hrequested with ⟨_, _, _, _, _, hin, -⟩ | ⟨keys, hin, -⟩
    · rw [hfresh.chain] at hin
      cases hin
    · rw [hfresh.orphans] at hin
      cases hin
  | @next events v v' event hrun hstep ih =>
    rcases requested_step hstep hrequested with hbefore | ⟨rfl, hlisted, hfound⟩
    · obtain ⟨before, after, u, u', rfl, hfound⟩ := ih hbefore
      exact ⟨before, after ++ [event], u, u', List.append_assoc _ _ _, hfound⟩
    · exact ⟨events, [], v, v', rfl, hrun, hstep, hlisted, hfound⟩

/-- **Retained content expires and nothing else is deleted.** In every run: an object that goes without being
    written over is under the prefix, a listing found an object of its key expired, and its own
    deadline has passed
    unless it was written after that listing; nothing that was due when the last completed cycle
    began is left; a failed or crashed sweep leaves the
    cursor; only the first sweep of the owner runs; and a read returns no expired and no other record. -/
theorem retained_content_expires (number : Text → Option Rat) (keyLe : Text → Text → Bool) (last : Text → Text)
    (parse : Text → Option Js.Value) {w₀ w : World} {events : List Event}
    (h : Trace.Run (Step number keyLe last) w₀ events w) (hfresh : Fresh w₀) :
    (∀ event w', Step number keyLe last w event w' → ∀ object ∈ w.archive, object ∉ w'.archive →
      event ≠ .upload object.key → isContent object.key = true ∧ ∃ listed, Requested w object.key listed ∧
        FoundExpired number keyLe last w₀ events object.key listed ∧
        (object.version < listed → retainedContentDeadline number object ≤ w.clock)) ∧
    (∀ mark began, w.completed = some (mark, began) → ∀ object ∈ w.archive, isContent object.key = true →
      object.version < mark → (began : Rat) < retainedContentDeadline number object) ∧
    (∀ event w', Step number keyLe last w event w' → event = .error ∨ event = .crash → w'.cursor = w.cursor) ∧
    (∀ before operation after, w.chain = before ++ operation :: after → operation ≠ .waiting →
      before = [] ∧ ∀ other ∈ after, other = .waiting) ∧
    (∀ tenant ref now record, readRetainedContent number parse w.archive tenant ref now = some record →
      Js.textOf (Js.get record "tenantId") = some tenant ∧ Js.textOf (Js.get record "contentRef") = some ref ∧
        ∃ object ∈ w.archive, contentKey tenant ref = some object.key ∧ ∃ expiry,
          Js.get record "expiresAtMs" = some (.num (.finite expiry)) ∧
            (now : Rat) < expiry ∧ (now : Rat) < retainedContentDeadline number object) := by
  have hsound := sound h hfresh
  refine ⟨fun event w' hstep object hin hgone hupload =>
    ?_, fun mark began hdone object hin hcontent hversion => ?_,
    fun event w' hstep hfailed => failed_keeps_cursor hstep hsound hfailed,
    fun before operation after hchain hruns => hsound.head hchain hruns,
    fun tenant ref now record hread => read_kept number parse hread⟩
  · obtain ⟨listed, hrequested⟩ := (gone_requested hstep hin hgone).resolve_left hupload
    obtain ⟨hcontent, hexpired⟩ := requested_sound hsound hrequested
    exact ⟨hcontent, listed, hrequested, requested_found h hfresh hrequested, fun hversion =>
      hexpired object hin rfl hversion⟩
  · exact not_le.mp fun hdue => (hsound.completed mark began hdone).due object ⟨hin, hcontent, hversion, hdue⟩

end Runs

section Example

/-- No metadata is a number, and one page holds all keys. -/
def noNumber : Text → Option Rat := fun _ => none

def oneOrder : Text → Text → Bool := fun _ _ => true

def agedObject : StoredObject := ⟨Js.text "v1/acme/content_1.json", 0, 0, none, []⟩

def youngObject : StoredObject := ⟨Js.text "v1/acme/content_2.json", 1, 1000, none, []⟩

/-- An archive with two objects, one of them written 30 days ago when the sweep begins. -/
def aged : World := ⟨[agedObject, youngObject], 2, none, [], [], 1000, 0, none⟩

def agedPage : Page := ⟨[agedObject, youngObject], false, none⟩

theorem aged_deadline : retainedContentDeadline noNumber agedObject = ((30 * 86400000 : Int) : Rat) := by
  unfold retainedContentDeadline agedObject retentionPeriodMs
  norm_num

theorem young_deadline : ((30 * 86400000 : Int) : Rat) < retainedContentDeadline noNumber youngObject := by
  unfold retainedContentDeadline youngObject retentionPeriodMs
  norm_num

theorem aged_expired : expiredKeys noNumber agedPage (30 * 86400000) = [agedObject.key] := by
  let expired : StoredObject → Bool := fun object =>
    retainedContentDeadline noNumber object ≤ ((30 * 86400000 : Int) : Rat)
  have haged : expired agedObject = true := decide_eq_true aged_deadline.le
  have hyoung : ¬ expired youngObject = true := fun h =>
    absurd (of_decide_eq_true h) (not_le.mpr young_deadline)
  show ([agedObject, youngObject].filter expired).map (·.key) = [agedObject.key]
  rw [List.filter_cons_of_pos haged, List.filter_cons_of_neg hyoung]
  rfl

/-- The sweep has listed its page and sent its delete. -/
def agedListed : World :=
  { aged with
    chain := [.deleting (initialState (30 * 86400000)) (30 * 86400000) 2 agedPage [agedObject.key] 2]
    clock := 30 * 86400000 }

theorem aged_fresh : Fresh aged where
  keys := by decide +kernel
  versions := by decide
  row := rfl
  chain := rfl
  orphans := rfl
  completed := rfl

theorem aged_run : Trace.Run (Step noNumber oneOrder id) aged [.fetch, .start, .list] agedListed := by
  have hfetch : Trace.Run (Step noNumber oneOrder id) aged [.fetch] { aged with chain := [.waiting] } :=
    Trace.Run.start.next .fetch
  have hstart : Step noNumber oneOrder id { aged with chain := [.waiting] } .start
      { aged with chain := [.listing (initialState (30 * 86400000)) (30 * 86400000) 2], clock :=
        30 * 86400000 } :=
    .start rfl (by decide)
  have hcontent : ∀ object ∈ aged.archive, isContent object.key = true := by decide +kernel
  have hlists : Lists oneOrder id aged.archive none agedPage := fun object =>
    ⟨fun hin => ⟨hin, hcontent object hin, rfl, nofun⟩, fun hin => hin.1⟩
  have hlist := @Step.list noNumber oneOrder id
    { aged with chain := [.listing (initialState (30 * 86400000)) (30 * 86400000) 2], clock :=
      30 * 86400000 } [] []
    (initialState (30 * 86400000)) (30 * 86400000) 2 agedPage (30 * 86400000) rfl hlists rfl le_rfl
    (by rw [aged_expired]; exact List.cons_ne_nil _ _)
  rw [aged_expired] at hlist
  exact (hfetch.next hstart).next hlist

/-- **An object that is written again while its delete is on the way goes with the old one.** -/
theorem rewritten_deleted : ∃ (w w' : World) (events : List Event) (object : StoredObject),
    Trace.Run (Step noNumber oneOrder id) aged events w ∧ Step noNumber oneOrder id w .delete w' ∧
      object ∈ w.archive ∧ object ∉ w'.archive ∧ (w'.clock : Rat) < retainedContentDeadline noNumber
        object := by
  refine ⟨agedListed.put agedObject.key (30 * 86400000) none [], _, _,
    ⟨agedObject.key, 2, 30 * 86400000, none, []⟩,
    aged_run.next .upload, @Step.delete noNumber oneOrder id _ [] [] _ _ _ _ _ _ _ rfl le_rfl, ?_, ?_, ?_⟩
  · exact List.mem_append_right _ (List.mem_singleton.mpr rfl)
  · intro hin
    exact of_decide_eq_true (List.mem_filter.mp hin).2 (List.mem_singleton.mpr rfl)
  · show (((30 * 86400000 : Int) : Int) : Rat) < _
    unfold retainedContentDeadline retentionPeriodMs
    norm_num

def agedSwept : World :=
  (agedListed.remove [agedObject.key]).complete [] (initialState (30 * 86400000)) (30 * 86400000) 2
  agedPage [agedObject.key] (30 * 86400000)

/-- The object is deleted, by a request that found it expired; the younger one is kept, and none
    that was due is left
    when the cycle is completed. -/
theorem aged_gone : agedObject ∉ agedSwept.archive ∧ youngObject ∈ agedSwept.archive ∧
    (∃ listed, Requested agedListed agedObject.key listed ∧
      FoundExpired noNumber oneOrder id aged [.fetch, .start, .list] agedObject.key listed) ∧
    agedSwept.completed = some (2, 30 * 86400000) ∧ ∀ object ∈ agedSwept.archive,
      isContent object.key = true → object.version < 2 →
        ((30 * 86400000 : Int) : Rat) < retainedContentDeadline noNumber object := by
  have hdelete : Step noNumber oneOrder id agedListed .delete agedSwept :=
    @Step.delete noNumber oneOrder id _ [] [] _ _ _ _ _ _ _ rfl le_rfl
  have hgone : agedObject ∉ agedSwept.archive := by decide +kernel
  have hbefore := (retained_content_expires noNumber oneOrder id (fun _ => none) aged_run aged_fresh).1
  obtain ⟨-, listed, hrequested, hfound, -⟩ := hbefore _ _ hdelete agedObject (by decide +kernel) hgone nofun
  exact ⟨hgone, by decide +kernel, ⟨listed, hrequested, hfound⟩, rfl,
    (retained_content_expires noNumber oneOrder id (fun _ => none) (aged_run.next hdelete) aged_fresh).2.1 2
      (30 * 86400000) rfl⟩

end Example

end ClawRouter.Retention
