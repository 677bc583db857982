/-
  Subject:   The counters and the cursor of a pool, at the authority (src/worker/authority.ts) and in an
             isolate (src/worker/admission-cache.ts).

  The authority counts a selection in the transaction that makes it. An isolate counts it in its
  snapshot and in records it still owes the authority: one for each grant of a pool, and one cursor for
  each pool. A flush takes what is owed.

  * **`recordSelections_ok`**: what a batch of records does;
  * **`toll_note`**, **`cursor_note`**: what a selection adds to what is owed;
  * **`toll_flushRecords`**, **`cursorOf_flushRecords`**: a flush reports what is owed.
-/
import ClawRouter.Selection.Eligibility

namespace ClawRouter.Selection

open Fallible Grants Keyed

/-! ## 1. The authority -/

def grantSelectionPoolKey (value : String) : Answer String := do
  require (!value.isEmpty && utf16Length value ≤ 1024 && !value.toList.any isControl)
    (invalidAuthorityRequest "grant selection pool key is invalid")
  return value

/-- `upstream_grant_selection` and `upstream_grant_pool_cursors`, by their primary keys. -/
structure Tables where
  selection : String → String → Option Counter
  cursors : String → Option String

/-- `INSERT … ON CONFLICT … DO UPDATE` of a counter. -/
def Tables.upsert (T : Tables) (poolKey key : String) (fresh : Counter)
    (update : Counter → Counter) : Tables :=
  { T with selection := fun p k =>
      if p = poolKey ∧ k = key then
        some (match T.selection p k with
          | some c => update c
          | none => fresh)
      else T.selection p k }

def Tables.setCursor (T : Tables) (poolKey key : String) : Tables :=
  { T with cursors := fun p => if p = poolKey then some key else T.cursors p }

/-- The `TypeError` of a choice of no candidates; nobody chooses of none. -/
def noCandidate : HttpError := ⟨500, "internal_error", "no candidate"⟩

/-- A choice is counted, and its cursor is set. -/
def Tables.note (T : Tables) (poolKey : String) (choice : GrantChoice) (now : Int) : Tables :=
  (match choice.cursorKey with
    | some cursorKey => T.setCursor poolKey cursorKey
    | none => T).upsert poolKey choice.selectedKey ⟨1, now⟩ fun c => ⟨c.count + 1, now⟩

def selectGrant (compare : LocaleCompare) (random : UInt32) (pool : String) (now : Int)
    (input : GrantChoiceInput) : StateT Tables Answer String :=
  fun T => do
  let poolKey ← grantSelectionPoolKey pool
  require (1 ≤ input.candidates.length && input.candidates.length ≤ 98)
    (invalidAuthorityRequest "grant selection candidates must be a bounded array")
  let candidates ← normalizedChoiceCandidates compare grantKey input.candidates
  let counts := if input.strategy = .leastUsed then T.selection poolKey else fun _ => none
  let choice ← demand (chooseGrantKey compare random input candidates ⟨T.cursors poolKey, counts⟩) noCandidate
  return (choice.selectedKey, T.note poolKey choice now)

/-- Selections that are recorded. -/
structure SelectionRecord where
  poolKey : String
  key : String
  count : Nat
  lastMs : Int
  cursorKey : Option String
  deriving DecidableEq

/-- The count `recordSelections` takes from a record. -/
def SelectionRecord.taken (r : SelectionRecord) : Nat := if 0 < r.count ∧ r.count ≤ 1000000 then r.count else 1

/-- The time `recordSelections` takes from a record. -/
def SelectionRecord.at (r : SelectionRecord) (now : Int) : Int :=
  if 0 < r.lastMs ∧ r.lastMs ≤ Js.maxSafeInteger then r.lastMs else now

def recordOne (now : Int) (T : Tables) (r : SelectionRecord) : Answer Tables := do
  let poolKey ← grantSelectionPoolKey r.poolKey
  let key ← grantKey r.key
  let T := T.upsert poolKey key ⟨r.taken, r.at now⟩ fun c => ⟨c.count + r.taken, max c.lastMs (r.at now)⟩
  match r.cursorKey with
  | some cursorKey => return T.setCursor poolKey (← grantKey cursorKey)
  | none => return T

def recordSelections (now : Int) (T : Tables) (records : List SelectionRecord) : Answer Tables := do
  require (records.length ≤ 256) (invalidAuthorityRequest "grant selection records must be a bounded array")
  records.foldlM (recordOne now) T

/-! ## 2. What an isolate owes -/

/-- A pool key as the authority lets it through. -/
structure PoolKey where
  text : String
  valid : grantSelectionPoolKey text = .ok text
  deriving DecidableEq

/-- Selections that are to be recorded. -/
structure PendingSelection where
  poolKey : PoolKey
  key : String
  count : Nat
  lastMs : Int
  deriving DecidableEq

def pendingId (poolKey : PoolKey) (key : String) : String := poolKey.text ++ "\n" ++ key

def PendingSelection.id (p : PendingSelection) : String := pendingId p.poolKey p.key

/-- `pendingSelections` and `pendingCursors`. A row that is new is the first one, so that the maps are
    the rows from the last to the first. -/
structure Pending where
  selections : Table PendingSelection.id
  cursors : Table (fun e : PoolKey × String => e.1)
  /-- A cursor came with a selection of its grant. -/
  held : ∀ e ∈ cursors.rows, (selections.find? (pendingId e.1 e.2)).isSome

/-- The row of a grant with one selection more. -/
def oneMore (poolKey : PoolKey) (key : String) (now : Int) (row : Option PendingSelection) :
    PendingSelection where
  poolKey :=
  poolKey
  key := key
  count := (row.map (·.count)).getD 0 + 1
  lastMs := now

def noteSelection (selections : Table PendingSelection.id) (poolKey : PoolKey) (key : String) (now : Int) :
    Table PendingSelection.id :=
  selections.upsert (oneMore poolKey key now (selections.find? (pendingId poolKey key)))

def noteCursor (cursors : Table fun e : PoolKey × String => e.1) (poolKey : PoolKey)
    (cursorKey : Option String) : Table fun e : PoolKey × String => e.1 :=
  match cursorKey with
  | some c => cursors.upsert (poolKey, c)
  | none => cursors

theorem append_line {a b c d : List Char} {x : Char} (ha : x ∉ a) (hb : x ∉ b)
    (h : a ++ x :: c = b ++ x :: d) : a = b ∧ c = d := by
  induction a generalizing b with
  | nil =>
    cases b with
    | nil => exact ⟨rfl, (List.cons.inj h).2⟩
    | cons y b => exact absurd (List.cons.inj h).1 fun e => hb (e ▸ List.mem_cons_self)
  | cons y a ih =>
    cases b with
    | nil => exact absurd (List.cons.inj h).1 fun e => ha (e ▸ List.mem_cons_self)
    | cons z b =>
      obtain ⟨hyz, h⟩ := List.cons.inj h
      obtain ⟨hab, hcd⟩ := ih (fun hx => ha (List.mem_cons_of_mem _ hx))
        (fun hx => hb (List.mem_cons_of_mem _ hx)) h
      exact ⟨by rw [hyz, hab], hcd⟩

theorem PoolKey.one_line (poolKey : PoolKey) : '\n' ∉ poolKey.text.toList := by
  intro hmem
  obtain ⟨u, hu, -⟩ := bind_ok.mp poolKey.valid
  have hcontrol : poolKey.text.toList.any isControl = true := List.any_eq_true.mpr ⟨'\n', hmem, by decide⟩
  simp [hcontrol] at hu
  exact Bool.false_ne_true (require_ok.mp hu)

theorem pendingId_inj {p q : PoolKey} {k l : String} : pendingId p k = pendingId q l ↔ p = q ∧ k = l := by
  constructor
  · intro h
    have h' := congrArg String.toList h
    simp only [pendingId, String.toList_append, List.append_assoc] at h'
    obtain ⟨hp, hk⟩ := append_line p.one_line q.one_line h'
    refine ⟨?_, String.toList_injective hk⟩
    cases p
    cases q
    cases String.toList_injective hp
    rfl
  · rintro ⟨rfl, rfl⟩
    rfl

theorem find?_noteSelection (selections : Table PendingSelection.id) (p q : PoolKey) (k l : String)
    (now : Int) :
    (noteSelection selections p k now).find? (pendingId q l) =
      if p = q ∧ k = l then some (oneMore p k now (selections.find? (pendingId p k)))
      else selections.find? (pendingId q l) := by
  unfold noteSelection
  rw [Table.find?_upsert]
  exact if_congr pendingId_inj rfl rfl

theorem mem_noteCursor {cursors : Table fun e : PoolKey × String => e.1} {p : PoolKey}
    {cursorKey : Option String} {e : PoolKey × String} (h : e ∈ (noteCursor cursors p cursorKey).rows) :
    e ∈ cursors.rows ∨ e.1 = p ∧ cursorKey = some e.2 := by
  cases cursorKey with
  | none => exact .inl h
  | some c =>
    have hfind := (Table.find?_eq_some (T := cursors.upsert (p, c))).mpr ⟨h, rfl⟩
    rw [Table.find?_upsert] at hfind
    by_cases hp : p = e.1
    · rw [if_pos hp] at hfind
      exact .inr ⟨hp.symm, by rw [← Option.some.inj hfind]⟩
    · rw [if_neg hp] at hfind
      exact .inl (Table.find?_eq_some.mp hfind).1

def Pending.note (P : Pending) (poolKey : PoolKey) (choice : GrantChoice) (now : Int) : Pending where
  selections :=
  noteSelection P.selections poolKey choice.selectedKey now
  cursors := noteCursor P.cursors poolKey choice.cursorKey
  held := by
    intro e he
    rw [find?_noteSelection]
    rcases mem_noteCursor he with he | ⟨hp, hc⟩
    · split
      · rfl
      · exact P.held e he
    · rw [if_pos ⟨hp.symm, (choice.own _ hc).symm⟩]
      rfl

def Pending.empty : Pending := ⟨Table.empty, Table.empty, nofun⟩

def PendingSelection.record (p : PendingSelection) : SelectionRecord :=
  ⟨p.poolKey.text, p.key, p.count, p.lastMs, none⟩

/-- `records.find(p)`, and the record found gets a cursor. -/
def setFirst (p : SelectionRecord → Bool) (cursorKey : String) :
    List SelectionRecord → Option (List SelectionRecord)
  | [] => none
  | r :: rest =>
    if p r then some ({ r with cursorKey := some cursorKey } :: rest)
    else (setFirst p cursorKey rest).map (r :: ·)

/-- A cursor goes on the record of its grant, or on one of its pool. -/
def withCursor (records : List SelectionRecord) (e : PoolKey × String) : List SelectionRecord :=
  ((setFirst (fun r => r.poolKey = e.1.text && r.key = e.2) e.2 records).or
    (setFirst (fun r => r.poolKey = e.1.text) e.2 records)).getD records

def flushRecords (P : Pending) : List SelectionRecord :=
  P.cursors.rows.reverse.foldl withCursor (P.selections.rows.reverse.map PendingSelection.record)

/-! ## 3. An isolate -/

/-- The snapshot of one pool, and what the isolate owes. -/
structure Isolate where
  cursorKey : Option String
  counts : String → Option Counter
  pending : Pending

def Isolate.note (I : Isolate) (poolKey : PoolKey) (choice : GrantChoice) (now : Int) : Isolate where
  cursorKey :=
  choice.cursorKey.or I.cursorKey
  counts := fun k =>
    if k = choice.selectedKey then some ⟨((I.counts k).map (·.count)).getD 0 + 1, now⟩ else I.counts k
  pending := I.pending.note poolKey choice now

def chooseLocally (compare : LocaleCompare) (random : UInt32) (poolKey : PoolKey) (now : Int)
    (input : GrantChoiceInput) : StateT Isolate Answer String :=
  fun I => do
  let candidates ← normalizedChoiceCandidates compare .ok input.candidates
  let choice ← demand (chooseGrantKey compare random input candidates ⟨I.cursorKey, I.counts⟩) noCandidate
  return (choice.selectedKey, I.note poolKey choice now)

/-- What an admission says of one provider. The keys are keys, and no more than `grantRuntimeStates`
    lets through when the pool is resolved. -/
structure Admission (Bindings : Type) where
  providerId : String
  /-- `policy.providers`. -/
  providers : List String
  /-- `policy.models`. -/
  models : Option (List String)
  /-- The providers and whether their connection is enabled. -/
  connections : List (String × Bool)
  poolKey : PoolKey
  pool : SelectionInput Bindings
  keys : ∀ c ∈ pool.candidates, grantKey c.key = .ok c.key
  bounded : pool.candidates.length ≤ 98

variable {key poolKey : String} {requirement : GrantRequirement} {request : AdmissionSelection}

section Selecting

variable {Bindings : Type} (W : Surroundings Bindings) (A : Admission Bindings)

/-- `assertPolicyModel` lets the operation through. -/
def policyAllowsOperation (models : Option (List String)) (model : Option String)
    (endpoint : CompiledEndpoint) (capability : String) : Bool :=
  match model with
  | some id => models.all fun allowed => allowed.contains id
  | none => models.isNone ||
      !(capability.startsWith "llm." || endpoint.requestFormat = "cloudflare_ai_gateway.universal")

/-- The early exits of `localSelection`, which are those of the authority. -/
def operation (request : AdmissionSelection) : Option GrantRequirement := do
  if request.providerId ≠ A.providerId then none
  let provider ← W.providers.find? fun p => p.id = request.providerId
  let endpoint ← provider.endpoints.find? fun e => e.id = request.endpointId
  if !A.providers.isEmpty && !A.providers.contains provider.id then none
  if (A.connections.find? fun c => c.1 = provider.id).any fun c => !c.2 then none
  if !policyAllowsOperation A.models (request.catalogModelId.filter fun id => id ≠ "") endpoint
      request.capability then none
  return ⟨provider, endpoint, request.mode, request.model, false⟩

/-- A selection of a request, by a way to choose; nothing where the request exits early. -/
def selection (choose : GrantChoiceInput → StateT σ Answer String) (request : AdmissionSelection)
    (now : Int) : StateT σ Answer (Option (GrantSelectionResult Bindings)) :=
  match operation W A request with
  | none => pure none
  | some requirement =>
    some <$> selectAdmissionCandidate W A.pool requirement request now choose

def localSelection (random : UInt32) (request : AdmissionSelection) (now : Int) :
    StateT Isolate Answer (Option (GrantSelectionResult Bindings)) :=
  selection W A (chooseLocally W.localeCompare random A.poolKey now) request now

/-- The selection of `finishAdmissionSelection`. -/
def authoritySelection (random : UInt32) (request : AdmissionSelection) (now : Int) :
    StateT Tables Answer (Option (GrantSelectionResult Bindings)) :=
  selection W A (selectGrant W.localeCompare random A.poolKey.text now) request now

/-! ## 4. Both choose alike -/

/-- An isolate counts what the tables do. -/
structure Agree (poolKey : PoolKey) (I : Isolate) (T : Tables) : Prop where
  cursor : I.cursorKey = T.cursors poolKey.text
  counts : ∀ k, I.counts k = T.selection poolKey.text k

theorem Tables.note_selection (T : Tables) (poolKey : String) (choice : GrantChoice) (now : Int) (k : String) :
    (T.note poolKey choice now).selection poolKey k =
      if k = choice.selectedKey then some ⟨((T.selection poolKey k).map (·.count)).getD 0 + 1, now⟩
      else T.selection poolKey k := by
  have hcursor : (match choice.cursorKey with
      | some cursorKey => T.setCursor poolKey cursorKey
      | none => T).selection = T.selection := by
    split <;> rfl
  unfold Tables.note Tables.upsert
  simp only [hcursor, true_and]
  split
  · cases T.selection poolKey k with
    | none => rfl
    | some c => rfl
  · rfl

theorem Tables.note_cursors (T : Tables) (poolKey : String) (choice : GrantChoice) (now : Int) :
    (T.note poolKey choice now).cursors poolKey = choice.cursorKey.or (T.cursors poolKey) := by
  unfold Tables.note Tables.upsert
  cases choice.cursorKey with
  | none => rfl
  | some c => simp [Tables.setCursor]

theorem Agree.note {poolKey : PoolKey} {I : Isolate} {T : Tables} (h : Agree poolKey I T)
    (choice : GrantChoice) (now : Int) :
    Agree poolKey (I.note poolKey choice now) (T.note poolKey.text choice now) where
  cursor := by
    rw [Tables.note_cursors, ← h.cursor]
    rfl
  counts := by
    intro k
    rw [Tables.note_selection, ← h.counts]
    rfl

theorem choices_agree {compare : LocaleCompare} {random : UInt32} {now : Int} {poolKey : PoolKey}
    {input : GrantChoiceInput} {I : Isolate} {T : Tables} (hagree : Agree poolKey I T)
    (hrandom : input.strategy ≠ .weightedRandom) (hkeys : ∀ c ∈ input.candidates, grantKey c.key = .ok c.key)
    (hsome : input.candidates ≠ []) (hbound : input.candidates.length ≤ 98) :
    ∃ choice : GrantChoice, (∃ c ∈ input.candidates, c.key = choice.selectedKey) ∧
      chooseLocally compare random poolKey now input I = .ok (choice.selectedKey, I.note poolKey choice now) ∧
      ∀ random', selectGrant compare random' poolKey.text now input T =
        .ok (choice.selectedKey, T.note poolKey.text choice now) := by
  obtain ⟨c, hc, hchosen⟩ := @chooseGrantKey_chosen compare random input _
    ⟨I.cursorKey, I.counts⟩ (normalized_ne_nil hsome)
  obtain ⟨e, he, hkey⟩ := mem_normalized hc
  have hchoice : ∃ choice : GrantChoice, choice.selectedKey = c.key ∧
      chooseGrantKey compare random input (sortBy (fun a b => compare a.key b.key)
        (lastOfKey (input.candidates.map ChoiceEntry.candidate))) ⟨I.cursorKey, I.counts⟩ = some choice := by
    rcases hchosen with h | h
    · exact ⟨advance c, rfl, h⟩
    · exact ⟨keep c, rfl, h⟩
  obtain ⟨choice, hselected, hchoice⟩ := hchoice
  refine ⟨choice, ⟨e, he, hkey.trans hselected.symm⟩, ?_, ?_⟩
  · unfold chooseLocally
    rw [normalizedChoiceCandidates_ok fun c _ => rfl]
    simp only [bind, Except.bind, hchoice]
    rfl
  · intro random'
    have hcounts : input.strategy = .leastUsed → I.counts =
        if input.strategy = .leastUsed then T.selection poolKey.text else fun _ => none := by
      intro h
      rw [if_pos h]
      exact funext hagree.counts
    have hsame := (@chooseGrantKey_state compare random random' input _ I.cursorKey _ _
      hrandom hcounts).symm.trans hchoice
    rw [hagree.cursor] at hsame
    have hlength : (decide (1 ≤ input.candidates.length) && decide (input.candidates.length ≤ 98)) = true := by
      simp [hbound, Nat.one_le_iff_ne_zero, hsome]
    unfold selectGrant
    rw [poolKey.valid, normalizedChoiceCandidates_ok hkeys]
    simp only [bind, Except.bind, require, hlength, if_true, hsame]
    rfl

def servedKey (r : Option (GrantSelectionResult Bindings)) : Option String :=
  r.bind fun r => r.selected.map fun s => s.1.key

variable {W A}

theorem selectionResult_selected {pool : SelectionInput Bindings} {now : Int}
    (h : ∃ e ∈ active W pool requirement request now, e.key = key) :
    servedKey (some (selectionResult W pool requirement request now (some key))) = some key := by
  obtain ⟨e, he, rfl⟩ := h
  cases hfind : (active W pool requirement request now).find? fun x => some x.key = some e.key with
  | none => simpa using List.find?_eq_none.mp hfind e he
  | some x =>
    have hkey : x.key = e.key := by simpa using List.find?_some hfind
    show ((((active W pool requirement request now).find? fun x => some x.key = some e.key).map
      fun x => (x, pool.revisions x.key)).map fun s => s.1.key) = some e.key
    rw [hfind, ← hkey]
    rfl

theorem active_mem {pool : SelectionInput Bindings} {now : Int} {e : SelectedGrant Bindings}
    (h : e ∈ active W pool requirement request now) : ∃ c ∈ pool.candidates, c.key = e.key := by
  have hconfigured := List.mem_of_mem_filter (List.mem_of_mem_filter (List.mem_of_mem_filter h))
  obtain ⟨c, hc, hsome⟩ := List.mem_filterMap.mp hconfigured
  obtain ⟨d, hd, rfl⟩ := List.mem_map.mp hc
  refine ⟨d, hd, ?_⟩
  obtain ⟨grant, -, hgrant⟩ := Option.bind_eq_some_iff.mp hsome
  split at hgrant
  · rw [← Option.some.inj hgrant]
  · cases hgrant

theorem active_length (pool : SelectionInput Bindings) (requirement : GrantRequirement)
    (request : AdmissionSelection) (now : Int) :
    (active W pool requirement request now).length ≤ pool.candidates.length := by
  refine (List.length_filter_le _ _).trans ((List.length_filter_le _ _).trans
    ((List.length_filter_le _ _).trans ((List.length_filterMap_le _ _).trans ?_)))
  rw [List.length_map]

theorem select_none {σ : Type} {pool : SelectionInput Bindings}
    {now : Int} {choose : GrantChoiceInput → StateT σ Answer String} {s : σ}
    (h : active W pool requirement request now = []) :
    selectAdmissionCandidate W pool requirement request now choose s =
      .ok (selectionResult W pool requirement request now none, s) := by
  unfold selectAdmissionCandidate
  rw [h]
  rfl

theorem select_some {σ : Type} {pool : SelectionInput Bindings}
    {now : Int} {choose : GrantChoiceInput → StateT σ Answer String}
    {s s' : σ} (h : active W pool requirement request now ≠ [])
    (hchoose : choose (choiceInput W pool requirement request now) s = .ok (key, s')) :
    selectAdmissionCandidate W pool requirement request now choose s =
      .ok (selectionResult W pool requirement request now (some key), s') := by
  have hempty : (active W pool requirement request now).isEmpty = false := by simp [h]
  unfold selectAdmissionCandidate
  rw [hempty]
  show (choose (choiceInput W pool requirement request now) s >>= fun x =>
    .ok (selectionResult W pool requirement request now (some x.1), x.2)) = _
  rw [hchoose]
  rfl

theorem selections_agree {random : UInt32} {now : Int} {I : Isolate} {T : Tables}
    (hagree : Agree A.poolKey I T)
    (hrandom : A.pool.routing.strategy ≠ .weightedRandom) :
    ∃ r, (servedKey r = none ∧ localSelection W A random request now I = .ok (r, I) ∧
        ∀ random', authoritySelection W A random' request now T = .ok (r, T)) ∨
      ∃ choice : GrantChoice, servedKey r = some choice.selectedKey ∧
        localSelection W A random request now I = .ok (r, I.note A.poolKey choice now) ∧
        ∀ random', authoritySelection W A random' request now T = .ok
          (r, T.note A.poolKey.text choice now) := by
  unfold localSelection authoritySelection selection
  cases operation W A request with
  | none => exact ⟨none, .inl ⟨rfl, rfl, fun _ => rfl⟩⟩
  | some requirement =>
    have hrun : ∀ {σ : Type} {choose : GrantChoiceInput → StateT σ Answer String} {s s' : σ}
        {r : GrantSelectionResult Bindings},
        selectAdmissionCandidate W A.pool requirement request now choose s = .ok (r, s') →
          (some <$> selectAdmissionCandidate W A.pool requirement request now choose :
            StateT σ Answer _) s = .ok (some r, s') := by
      intro σ choose s s' r h
      show (selectAdmissionCandidate W A.pool requirement request now choose s >>= fun x =>
        .ok (some x.1, x.2)) = _
      rw [h]
      rfl
    by_cases hactive : active W A.pool requirement request now = []
    · refine ⟨some (selectionResult W A.pool requirement request now none), .inl ⟨?_, ?_, ?_⟩⟩
      · simp [servedKey, selectionResult, hactive]
      · exact hrun (select_none hactive)
      · exact fun _ => hrun (select_none hactive)
    · obtain ⟨choice, ⟨c, hc, hkey⟩, hlocal, hauthority⟩ := @choices_agree W.localeCompare random now A.poolKey
          (choiceInput W A.pool requirement request now) I T hagree hrandom
          (fun c hc => by
            obtain ⟨e, he, rfl⟩ := List.mem_map.mp hc
            obtain ⟨d, hd, hkey⟩ := active_mem he
            rw [← hkey]
            exact A.keys d hd)
          (fun e => hactive (List.map_eq_nil_iff.mp e))
          (by
            rw [choiceInput, List.length_map]
            exact (active_length A.pool requirement request now).trans A.bounded)
      refine ⟨some (selectionResult W A.pool requirement request now (some choice.selectedKey)),
        .inr ⟨choice, ?_, ?_, ?_⟩⟩
      · obtain ⟨e, he, rfl⟩ := List.mem_map.mp hc
        exact selectionResult_selected ⟨e, he, hkey⟩
      · exact hrun (select_some hactive hlocal)
      · exact fun random' => hrun (select_some hactive (hauthority random'))

end Selecting

/-! ## 5. What records add up to -/

def Counter.merge (a b : Counter) : Counter := ⟨a.count + b.count, max a.lastMs b.lastMs⟩

instance : Std.Associative Counter.merge where
  assoc a b c := by simp [Counter.merge, Nat.add_assoc, max_assoc]

instance : Std.Commutative Counter.merge where
  comm a b := by simp [Counter.merge, Nat.add_comm, max_comm]

/-- Two counters of one grant, where there are any. -/
abbrev plus : Option Counter → Option Counter → Option Counter := Option.merge Counter.merge

theorem plus_none (a : Option Counter) : plus a none = a := by cases a <;> rfl

theorem none_plus (a : Option Counter) : plus none a = a := by cases a <;> rfl

/-- What a record counts for a grant of a pool. -/
def SelectionRecord.amount (poolKey key : String) (r : SelectionRecord) : Option Counter :=
  if r.poolKey = poolKey ∧ r.key = key then some ⟨r.count, r.lastMs⟩ else none

def toll (poolKey key : String) : List SelectionRecord → Option Counter
  | [] => none
  | r :: rest => plus (r.amount poolKey key) (toll poolKey key rest)

def cursorOf (poolKey : String) : List SelectionRecord → Option String
  | [] => none
  | r :: rest => (cursorOf poolKey rest).or (if r.poolKey = poolKey then r.cursorKey else none)

theorem toll_append (poolKey key : String) (l l' : List SelectionRecord) :
    toll poolKey key (l ++ l') = plus (toll poolKey key l) (toll poolKey key l') := by
  induction l with
  | nil => rw [List.nil_append, toll, none_plus]
  | cons r l ih =>
    rw [List.cons_append, toll, toll, ih]
    ac_rfl

theorem cursorOf_append (poolKey : String) (l l' : List SelectionRecord) :
    cursorOf poolKey (l ++ l') = (cursorOf poolKey l').or (cursorOf poolKey l) := by
  induction l with
  | nil => rw [List.nil_append, cursorOf, Option.or_none]
  | cons r l ih => rw [List.cons_append, cursorOf, cursorOf, ih, Option.or_assoc]

theorem toll_perm {l l' : List SelectionRecord} (h : l.Perm l') :
    toll poolKey key l = toll poolKey key l' := by
  induction h with
  | nil => rfl
  | cons r _ ih => rw [toll, toll, ih]
  | swap a b l =>
    simp only [toll]
    ac_rfl
  | trans _ _ ih ih' => exact ih.trans ih'

/-- A record whose numbers `recordSelections` takes as they are. -/
def SelectionRecord.Sound (r : SelectionRecord) : Prop :=
  (0 < r.count ∧ r.count ≤ 1000000) ∧ 0 < r.lastMs ∧ r.lastMs ≤ Js.maxSafeInteger

theorem grantKey_ok {value : String} (h : grantKey value = .ok key) : key = value := by
  obtain ⟨u, -, h⟩ := bind_ok.mp h
  exact (pure_ok.mp h).symm

theorem poolKey_ok {value : String} (h : grantSelectionPoolKey value = .ok key) : key = value := by
  obtain ⟨u, -, h⟩ := bind_ok.mp h
  exact (pure_ok.mp h).symm

section Recording

variable {now : Int} {T T' : Tables} {r : SelectionRecord} {poolKey key : String}

theorem recordOne_ok (h : recordOne now T r = .ok T') :
    T'.selection = (T.upsert r.poolKey r.key ⟨r.taken, r.at now⟩ fun c =>
      ⟨c.count + r.taken, max c.lastMs (r.at now)⟩).selection ∧
    ∀ p, T'.cursors p = (if r.poolKey = p then r.cursorKey else none).or (T.cursors p) := by
  obtain ⟨p, hp, h⟩ := bind_ok.mp h
  obtain ⟨k, hk, h⟩ := bind_ok.mp h
  cases poolKey_ok hp
  cases grantKey_ok hk
  cases hcursor : r.cursorKey with
  | none =>
    rw [hcursor] at h
    cases pure_ok.mp h
    exact ⟨rfl, fun p => by simp [Tables.upsert]⟩
  | some c =>
    rw [hcursor] at h
    obtain ⟨c', hc, h⟩ := bind_ok.mp h
    cases grantKey_ok hc
    cases pure_ok.mp h
    refine ⟨rfl, fun p => ?_⟩
    by_cases e : p = r.poolKey
    · simp [Tables.setCursor, e]
    · simp [Tables.setCursor, Tables.upsert, e, Ne.symm e]

theorem recordOne_selection (h : recordOne now T r = .ok T') (hsound : r.poolKey = poolKey → r.Sound) :
    T'.selection poolKey key = plus (T.selection poolKey key) (r.amount poolKey key) := by
  rw [(recordOne_ok h).1]
  unfold Tables.upsert SelectionRecord.amount
  by_cases e : poolKey = r.poolKey ∧ key = r.key
  · obtain ⟨hcount, htime⟩ := hsound e.1.symm
    have htaken : r.taken = r.count := if_pos hcount
    have hat : r.at now = r.lastMs := if_pos htime
    simp only [if_pos e, if_pos (And.intro e.1.symm e.2.symm), htaken, hat]
    cases T.selection poolKey key with
    | none => rfl
    | some c => rfl
  · rw [if_neg (fun h => e ⟨h.1.symm, h.2.symm⟩), plus_none]
    exact if_neg e

/-- **A batch of records** adds its counts and leaves its cursor. -/
theorem recordSelections_ok {records : List SelectionRecord} (h : recordSelections now T records = .ok T') :
    (∀ key, (∀ r ∈ records, r.poolKey = poolKey → r.Sound) →
      T'.selection poolKey key = plus (T.selection poolKey key) (toll poolKey key records)) ∧
    T'.cursors poolKey = (cursorOf poolKey records).or (T.cursors poolKey) := by
  obtain ⟨_, -, hrun⟩ := bind_ok.mp h
  clear h
  induction records generalizing T with
  | nil =>
    cases pure_ok.mp hrun
    exact ⟨fun key _ => (plus_none _).symm, rfl⟩
  | cons r rest ih =>
    rw [List.foldlM_cons] at hrun
    obtain ⟨T₁, hone, hrun⟩ := bind_ok.mp hrun
    obtain ⟨hselection, hcursors⟩ := ih hrun
    refine ⟨fun key hsound => ?_, ?_⟩
    · rw [hselection key fun r hr => hsound r (List.mem_cons_of_mem _ hr),
        recordOne_selection hone (hsound r List.mem_cons_self), toll]
      ac_rfl
    · rw [hcursors, (recordOne_ok hone).2, cursorOf, Option.or_assoc]

end Recording

/-! ## 6. What a flush reports -/

def PendingSelection.counter (p : PendingSelection) : Counter := ⟨p.count, p.lastMs⟩

def Pending.owed (P : Pending) (poolKey : PoolKey) (key : String) : Option Counter :=
  (P.selections.find? (pendingId poolKey key)).map PendingSelection.counter

def Pending.cursor (P : Pending) (poolKey : PoolKey) : Option String := (P.cursors.find? poolKey).map Prod.snd

theorem PoolKey.ext_text {p q : PoolKey} (h : p.text = q.text) : p = q := by
  cases p
  cases q
  cases h
  rfl

theorem toll_rows {l : List PendingSelection} (h : (l.map PendingSelection.id).Nodup) (poolKey : PoolKey)
    (key : String) : toll poolKey.text key (l.map PendingSelection.record) =
      (l.find? fun p => p.id = pendingId poolKey key).map PendingSelection.counter := by
  induction l with
  | nil => rfl
  | cons p l ih =>
    obtain ⟨hp, hl⟩ := List.nodup_cons.mp h
    rw [List.map_cons, toll, ih hl]
    by_cases e : p.id = pendingId poolKey key
    · have hrest : l.find? (fun q => q.id = pendingId poolKey key) = none := by
        refine List.find?_eq_none.mpr fun q hq => ?_
        simpa using fun eq : q.id = pendingId poolKey key =>
          hp (List.mem_map.mpr ⟨q, hq, eq.trans e.symm⟩)
      obtain ⟨hpool, hkey⟩ := pendingId_inj.mp e
      rw [hrest, List.find?_cons_of_pos (by simpa using e)]
      simp [SelectionRecord.amount, PendingSelection.record, hpool, hkey, PendingSelection.counter]
    · have hnot : ¬(p.record.poolKey = poolKey.text ∧ p.record.key = key) := fun ⟨hpool, hkey⟩ =>
        e (pendingId_inj.mpr ⟨PoolKey.ext_text hpool, hkey⟩)
      rw [List.find?_cons_of_neg (by simpa using e), SelectionRecord.amount, if_neg hnot, none_plus]

variable {p : SelectionRecord → Bool}

theorem setFirst_split {c : String} {l l' : List SelectionRecord} (h : setFirst p c l = some l') :
    ∃ before r after, l = before ++ r :: after ∧ p r = true ∧
      l' = before ++ { r with cursorKey := some c } :: after := by
  induction l generalizing l' with
  | nil => cases h
  | cons r l ih =>
    unfold setFirst at h
    split at h
    · rename_i hp
      cases h
      exact ⟨[], r, l, rfl, hp, rfl⟩
    · obtain ⟨rest, hrest, rfl⟩ := Option.map_eq_some_iff.mp h
      obtain ⟨before, x, after, rfl, hx, rfl⟩ := ih hrest
      exact ⟨r :: before, x, after, rfl, hx, rfl⟩

theorem setFirst_isSome {c : String} {l : List SelectionRecord}
    (h : ∃ r ∈ l, p r = true) : (setFirst p c l).isSome := by
  induction l with
  | nil =>
    obtain ⟨r, hr, -⟩ := h
    cases hr
  | cons x l ih =>
    unfold setFirst
    split
    · rfl
    · rename_i hx
      obtain ⟨r, hr, hp⟩ := h
      rcases List.mem_cons.mp hr with rfl | hr
      · exact absurd hp hx
      · rw [Option.isSome_map]
        exact ih ⟨r, hr, hp⟩

theorem setFirst_toll {c : String} {l l' : List SelectionRecord} (h : setFirst p c l = some l') :
    toll poolKey key l' = toll poolKey key l := by
  obtain ⟨before, r, after, rfl, -, rfl⟩ := setFirst_split h
  rw [toll_append, toll_append]
  rfl

theorem withCursor_toll (poolKey key : String) (l : List SelectionRecord) (e : PoolKey × String) :
    toll poolKey key (withCursor l e) = toll poolKey key l := by
  unfold withCursor
  cases hgrant : setFirst (fun r => r.poolKey = e.1.text && r.key = e.2) e.2 l with
  | some l' => exact setFirst_toll hgrant
  | none =>
    cases hpool : setFirst (fun r => r.poolKey = e.1.text) e.2 l with
    | some l' => exact setFirst_toll hpool
    | none => rfl

/-- **A flush reports what is owed.** -/
theorem toll_flushRecords (P : Pending) (poolKey : PoolKey) (key : String) :
    toll poolKey.text key (flushRecords P) = P.owed poolKey key := by
  have hfold : ∀ (es : List (PoolKey × String)) (l : List SelectionRecord),
      toll poolKey.text key (es.foldl withCursor l) = toll poolKey.text key l := by
    intro es
    induction es with
    | nil => exact fun l => rfl
    | cons e es ih => exact fun l => (ih _).trans (withCursor_toll _ _ l e)
  unfold flushRecords
  rw [hfold, List.map_reverse, toll_perm (List.reverse_perm _), toll_rows P.selections.nodup]
  rfl

theorem cursorOf_none {l : List SelectionRecord}
    (h : ∀ r ∈ l, r.poolKey = poolKey → r.cursorKey = none) : cursorOf poolKey l = none := by
  induction l with
  | nil => rfl
  | cons r l ih =>
    rw [cursorOf, ih fun r hr => h r (List.mem_cons_of_mem _ hr), Option.none_or]
    split
    · exact h r List.mem_cons_self ‹_›
    · rfl

theorem withCursor_split {l : List SelectionRecord} {e : PoolKey × String}
    (h : ∃ r ∈ l, r.poolKey = e.1.text ∧ r.key = e.2) :
    ∃ before r after, l = before ++ r :: after ∧ (r.poolKey = e.1.text ∧ r.key = e.2) ∧
      withCursor l e = before ++ { r with cursorKey := some e.2 } :: after := by
  obtain ⟨r, hr, hpool, hkey⟩ := h
  obtain ⟨l', hl'⟩ := Option.isSome_iff_exists.mp (@setFirst_isSome
    (fun r => r.poolKey = e.1.text && r.key = e.2) e.2 l ⟨r, hr, by simp [hpool, hkey]⟩)
  obtain ⟨before, x, after, hsplit, hx, rfl⟩ := setFirst_split hl'
  refine ⟨before, x, after, hsplit, by simpa using hx, ?_⟩
  unfold withCursor
  rw [hl']
  rfl

/-- **A flush reports the cursors that are owed.** -/
theorem cursorOf_flushRecords (P : Pending) (poolKey : PoolKey) :
    cursorOf poolKey.text (flushRecords P) = P.cursor poolKey := by
  have hfold : ∀ (es : List (PoolKey × String)) (l : List SelectionRecord), (es.map Prod.fst).Nodup →
      (∀ e ∈ es, ∃ r ∈ l, r.poolKey = e.1.text ∧ r.key = e.2) →
      (∀ e ∈ es, ∀ r ∈ l, r.poolKey = e.1.text → r.cursorKey = none) →
      cursorOf poolKey.text (es.foldl withCursor l) =
        ((es.find? fun e => e.1 = poolKey).map Prod.snd).or (cursorOf poolKey.text l) := by
    intro es
    induction es with
    | nil => exact fun l _ _ _ => rfl
    | cons e es ih =>
      intro l hnodup hheld hnone
      obtain ⟨hnew, hnodup⟩ := List.nodup_cons.mp hnodup
      obtain ⟨before, x, after, rfl, ⟨hpool, hkey⟩, hset⟩ := withCursor_split (hheld e List.mem_cons_self)
      have hother : ∀ e' ∈ es, e'.1.text ≠ e.1.text := fun e' he' eq =>
        hnew (List.mem_map.mpr ⟨e', he', PoolKey.ext_text eq⟩)
      -- the other cursors still find their records as they were
      have hrest := ih (withCursor (before ++ x :: after) e) hnodup (fun e' he' => by
          obtain ⟨r, hr, hr'⟩ := hheld e' (List.mem_cons_of_mem _ he')
          refine ⟨r, ?_, hr'⟩
          have hne : r ≠ x := fun eq => hother e' he' (hr'.1.symm.trans (eq ▸ hpool))
          rw [hset]
          rcases List.mem_append.mp hr with hr | hr
          · exact List.mem_append_left _ hr
          · rcases List.mem_cons.mp hr with hr | hr
            · exact absurd hr hne
            · exact List.mem_append_right _ (List.mem_cons_of_mem _ hr))
        (fun e' he' r hr hr' => by
          rw [hset] at hr
          rcases List.mem_append.mp hr with hr | hr
          · exact hnone e' (List.mem_cons_of_mem _ he') r (List.mem_append_left _ hr) hr'
          · rcases List.mem_cons.mp hr with rfl | hr
            · exact absurd (hr'.symm.trans hpool) (hother e' he')
            · exact hnone e' (List.mem_cons_of_mem _ he') r
                (List.mem_append_right _ (List.mem_cons_of_mem _ hr)) hr')
      rw [List.foldl_cons, hrest, hset, cursorOf_append, cursorOf_append, cursorOf, cursorOf]
      by_cases hp : e.1 = poolKey
      · subst hp
        have hnotfound : es.find? (fun e' => e'.1 = e.1) = none := List.find?_eq_none.mpr fun e' he' => by
            simpa using fun eq : e'.1 = e.1 => hother e' he' (congrArg PoolKey.text eq)
        have hafter : cursorOf e.1.text after = none := cursorOf_none fun r hr =>
          hnone e List.mem_cons_self r (List.mem_append_right _ (List.mem_cons_of_mem _ hr))
        rw [hnotfound, hafter, List.find?_cons_of_pos (by simp)]
        simp [hpool]
      · have htext : x.poolKey ≠ poolKey.text := fun eq => hp (PoolKey.ext_text (hpool.symm.trans eq))
        rw [List.find?_cons_of_neg (by simpa using hp), if_neg htext, if_neg htext]
  unfold flushRecords
  rw [hfold]
  · rw [cursorOf_none fun r hr _ => ?_, Option.or_none]
    · unfold Pending.cursor Table.find?
      have hperm : ∀ (l : List (PoolKey × String)), (l.map Prod.fst).Nodup →
          l.reverse.find? (fun e => e.1 = poolKey) = l.find? fun e => e.1 = poolKey := by
        intro l hl
        have hrev : (l.reverse.map Prod.fst).Nodup := by
          rw [List.map_reverse]
          exact List.nodup_reverse.mpr hl
        have hsame : ∀ e, (⟨l.reverse, hrev⟩ : Table fun e : PoolKey × String => e.1).find? poolKey = some e ↔
            (⟨l, hl⟩ : Table fun e : PoolKey × String => e.1).find? poolKey = some e := by
          intro e
          rw [Table.find?_eq_some, Table.find?_eq_some, List.mem_reverse]
        exact Option.ext hsame
      rw [hperm _ P.cursors.nodup]
    · obtain ⟨p, -, rfl⟩ := List.mem_map.mp hr
      rfl
  · rw [List.map_reverse]
    exact List.nodup_reverse.mpr P.cursors.nodup
  · intro e he
    obtain ⟨p, hp⟩ := Option.isSome_iff_exists.mp (P.held e (List.mem_reverse.mp he))
    obtain ⟨hmem, hid⟩ := Table.find?_eq_some.mp hp
    obtain ⟨hpool, hkey⟩ := pendingId_inj.mp hid
    exact ⟨p.record, List.mem_map_of_mem (List.mem_reverse.mpr hmem), congrArg PoolKey.text hpool, hkey⟩
  · intro e _ r hr _
    obtain ⟨p, -, rfl⟩ := List.mem_map.mp hr
    rfl

theorem mem_flushRecords {P : Pending} {r : SelectionRecord} (h : r ∈ flushRecords P) :
    ∃ p ∈ P.selections.rows, r.poolKey = p.poolKey.text ∧ r.key = p.key ∧ r.count = p.count ∧
      r.lastMs = p.lastMs := by
  have hset : ∀ {q : SelectionRecord → Bool} {c : String} {l l' : List SelectionRecord},
      setFirst q c l = some l' → ∀ r ∈ l', ∃ x ∈ l, r.poolKey = x.poolKey ∧ r.key = x.key ∧
        r.count = x.count ∧ r.lastMs = x.lastMs := by
    intro q c l l' hl r hr
    obtain ⟨before, x, after, rfl, -, rfl⟩ := setFirst_split hl
    rcases List.mem_append.mp hr with hr | hr
    · exact ⟨r, List.mem_append_left _ hr, rfl, rfl, rfl, rfl⟩
    · rcases List.mem_cons.mp hr with rfl | hr
      · exact ⟨x, List.mem_append_right _ List.mem_cons_self, rfl, rfl, rfl, rfl⟩
      · exact ⟨r, List.mem_append_right _ (List.mem_cons_of_mem _ hr), rfl, rfl, rfl, rfl⟩
  have hcursor : ∀ (l : List SelectionRecord) (e : PoolKey × String), ∀ r ∈ withCursor l e,
      ∃ x ∈ l, r.poolKey = x.poolKey ∧ r.key = x.key ∧ r.count = x.count ∧ r.lastMs = x.lastMs := by
    intro l e r hr
    unfold withCursor at hr
    cases hgrant : setFirst (fun r => r.poolKey = e.1.text && r.key = e.2) e.2 l with
    | some l' =>
      rw [hgrant] at hr
      exact hset hgrant r hr
    | none =>
      rw [hgrant] at hr
      cases hpool : setFirst (fun r => r.poolKey = e.1.text) e.2 l with
      | some l' =>
        rw [hpool] at hr
        exact hset hpool r hr
      | none =>
        rw [hpool] at hr
        exact ⟨r, hr, rfl, rfl, rfl, rfl⟩
  have hfold : ∀ (es : List (PoolKey × String)) (l : List SelectionRecord), ∀ r ∈ es.foldl withCursor l,
      ∃ x ∈ l, r.poolKey = x.poolKey ∧ r.key = x.key ∧ r.count = x.count ∧ r.lastMs = x.lastMs := by
    intro es
    induction es with
    | nil => exact fun l r hr => ⟨r, hr, rfl, rfl, rfl, rfl⟩
    | cons e es ih =>
      intro l r hr
      obtain ⟨x, hx, h₁, h₂, h₃, h₄⟩ := ih _ r hr
      obtain ⟨y, hy, h₁', h₂', h₃', h₄'⟩ := hcursor l e x hx
      exact ⟨y, hy, h₁.trans h₁', h₂.trans h₂', h₃.trans h₃', h₄.trans h₄'⟩
  obtain ⟨x, hx, h₁, h₂, h₃, h₄⟩ := hfold _ _ r h
  obtain ⟨p, hp, rfl⟩ := List.mem_map.mp hx
  exact ⟨p, List.mem_reverse.mp hp, h₁, h₂, h₃, h₄⟩

/-! ## 7. What a selection owes -/

theorem Pending.note_owed (P : Pending) (p q : PoolKey) (choice : GrantChoice) (now : Int) (key : String)
    (h : ∀ c, P.owed q key = some c → c.lastMs ≤ now) : (P.note p choice now).owed q key =
      plus (P.owed q key) (if p = q ∧ choice.selectedKey = key then some ⟨1, now⟩ else none) := by
  unfold Pending.owed at h ⊢
  show ((noteSelection P.selections p choice.selectedKey now).find? _).map _ = _
  rw [find?_noteSelection]
  by_cases e : p = q ∧ choice.selectedKey = key
  · obtain ⟨rfl, rfl⟩ := e
    rw [if_pos ⟨rfl, rfl⟩, if_pos ⟨rfl, rfl⟩]
    cases hfind : P.selections.find? (pendingId p choice.selectedKey) with
    | none => rfl
    | some row =>
      have hlast : row.lastMs ≤ now := h ⟨row.count, row.lastMs⟩ (by rw [hfind]; rfl)
      simp [oneMore, PendingSelection.counter, Counter.merge, hlast]
  · rw [if_neg e, if_neg e, plus_none]

theorem Pending.note_cursor (P : Pending) (p q : PoolKey) (choice : GrantChoice) (now : Int) :
    (P.note p choice now).cursor q = (if p = q then choice.cursorKey else none).or (P.cursor q) := by
  show ((noteCursor P.cursors p choice.cursorKey).find? q).map Prod.snd = _
  unfold Pending.cursor noteCursor
  cases choice.cursorKey with
  | none => simp
  | some c =>
    rw [Table.find?_upsert]
    by_cases e : p = q
    · simp [e]
    · simp [e]

theorem Tables.note_plus {T : Tables} {choice : GrantChoice} {now : Int}
    (h : ∀ c, T.selection poolKey key = some c → c.lastMs ≤ now) :
    (T.note poolKey choice now).selection poolKey key =
      plus (T.selection poolKey key) (if choice.selectedKey = key then some ⟨1, now⟩ else none) := by
  rw [Tables.note_selection]
  by_cases e : key = choice.selectedKey
  · rw [if_pos e, if_pos e.symm]
    cases hc : T.selection poolKey key with
    | none => rfl
    | some c => simp [Counter.merge, h c hc]
  · rw [if_neg e, if_neg (Ne.symm e), plus_none]

end ClawRouter.Selection
