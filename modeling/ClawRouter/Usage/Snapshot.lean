/-
  Subject:   The usage snapshot (`UsageLedgerObject.snapshot` of src/worker/ledgers.ts), read from
             the rollups once their migration is complete and from the events before that.

  The two readings group by different keys: the rollups by the JSON quoting of the normalized
  principal and of the credential, the events by the columns themselves, and both are merged under
  the normalized principal afterwards. The rollups know whole days only.

  * **`snapshot_rollups_agree`**: the two snapshots have the same rows.

  Rows of a result are compared without their order.
-/
import ClawRouter.Lib.Aggregate
import ClawRouter.Lib.JsonText
import ClawRouter.Usage.Rollups

namespace ClawRouter.Usage

open Keyed Grouped Js Sqlite

/-! ## 1. Ranges and columns -/

def usageDayMs : Int := 86400000

def usageWindowDays : Int := 30

/-- Where the windows of a snapshot begin. -/
structure UsageCutoffs where
  rolling : Int
  daily : Int

def usageCutoffs (now days : Int) : UsageCutoffs where
  rolling :=
  now - days * usageDayMs
  daily := now / usageDayMs * usageDayMs - (days - 1) * usageDayMs

/-- `policy_id IN (…)`; an empty list asks for every policy. -/
def policySelected (policyIds : List String) (policyId : String) : Bool :=
  let uniquePolicyIds := (policyIds.filter fun id => id ≠ "").dedup
  uniquePolicyIds.isEmpty || uniquePolicyIds.contains policyId

def totalColumns : List Counter :=
  [.requestCount, .successCount, .errorCount, .totalTokens, .actualCostMicros,
    .unpricedRequestCount]

/-- What an event adds to each column of a scan. -/
def usageSummaryColumns (migration : AttributionMigration) (row : UsageRow) : Counter → Int
  | .requestCount => 1
  | .successCount => if row.status = "success" then 1 else 0
  | .errorCount => if row.status ≠ "success" then 1 else 0
  | .totalTokens => row.totalTokens.getD 0
  | .actualCostMicros => row.actualCostMicros
  | .unpricedRequestCount => if rowUnpriced (attributionPending migration row) row then 1 else 0
  | .inputTokens => row.inputTokens.getD 0
  | .outputTokens => row.outputTokens.getD 0

/-- The totals of a provider. -/
structure ProviderRow where
  provider : String
  totals : List Int
  deriving DecidableEq

/-- The totals of a day. -/
structure DailyRow where
  dayStartMs : Int
  totals : List Int
  deriving DecidableEq

/-- The totals of a snapshot. -/
structure UsageTotals where
  summary : Counter → Int
  providers : List ProviderRow
  daily : List DailyRow

def totals {ρ : Type} (range dailyRange : List ρ) (provider : ρ → String) (day : ρ → Int)
    (columns : ρ → Counter → Int) : UsageTotals where
  summary := fun c => (range.map fun r => columns r c).sum
  providers := (aggregate range provider columns).rows.map fun t =>
    ⟨t.key, totalColumns.map t.counts⟩
  daily := (aggregate dailyRange day columns).rows.map fun t => ⟨t.key, totalColumns.map t.counts⟩

/-- The usage of a principal. -/
structure PrincipalUsage where
  principalId : Option String
  credentialId : Option String
  summary : Counter → Int

def PrincipalUsage.identity (row : PrincipalUsage) : Option String × Option String :=
  (row.principalId, if row.principalId.isNone then row.credentialId else none)

def mergePrincipalUsage (rows : List PrincipalUsage) : List PrincipalUsage :=
  (aggregate rows PrincipalUsage.identity PrincipalUsage.summary).rows.map fun t =>
    ⟨t.key.1, t.key.2, t.counts⟩

/-- Whose events are asked for. -/
inductive UsageEventScope
  | admin
  | principal (id : String)
  | credential (id : String)

/-- A snapshot. -/
structure UsageSnapshot where
  totals : UsageTotals
  personal : Option UsageTotals
  principals : Option (List PrincipalUsage)

/-- `typeof value === "string"` of a SQL value. -/
def textValue : SqlValue → Option String
  | .text s => some s
  | _ => none

section Branches

variable (toLowerCase : String → String)

def reportedPrincipal (id : String) : String := (normalizeEmail toLowerCase id).getD id

/-! ## 2. From the events -/

def ownerCondition (db : UsageDb) (range : List UsageRow) (scope : UsageEventScope) :
    Option (UsageRow → Bool) :=
  let pending := attributionPending db.attribution
  match scope with
  | .admin => none
  | .credential owner => some fun row =>
    if pending row then
      jsonExtract (row.eventJson.get? "principal_id") = .null &&
        jsonExtract (row.eventJson.get? "credential_id") = .text owner
    else
      row.principalId = none && row.principalNontext = 0 && row.credentialId = some owner
  | .principal owner =>
    match normalizeEmail toLowerCase owner with
    | none => some fun _ => false
    | some principal =>
      let candidates := (range.filter pending).filterMap fun row =>
        eventText row "principal_id"
      let aliases := candidates.filter fun id => normalizeEmail toLowerCase id = some principal
      some fun row =>
        if pending row then (eventText row "principal_id").any fun id => aliases.contains id
        else row.principalKey = some principal

def principalTotals (migration : AttributionMigration) (range : List UsageRow) : List PrincipalUsage :=
  let pending := attributionPending migration
  let principal := fun row => if pending row then eventText row "principal_id" else row.principalId
  let credential := fun row =>
    if pending row then jsonExtract (row.eventJson.get? "credential_id")
    else (row.credentialId.map SqlValue.text).getD .null
  let grouped := aggregate range
    (fun row => (principal row, if (principal row).isSome then .null else credential row))
    (usageSummaryColumns migration)
  mergePrincipalUsage (grouped.rows.map fun t =>
    { principalId := t.key.1.map (reportedPrincipal toLowerCase)
      credentialId := if t.key.1.isNone then textValue t.key.2 else none
      summary := t.counts })

/-- The snapshot of the tables as the cleanup left them. -/
def snapshotFromEvents (db : UsageDb) (now : Int) (policyIds : List String)
    (scope : UsageEventScope) : UsageSnapshot :=
  let cutoffs := usageCutoffs now usageWindowDays
  let where' := fun cutoff => db.events.rows.filter fun row =>
    policySelected policyIds row.policyId && cutoff ≤ row.occurredAtMs
  let range := where' cutoffs.rolling
  let dailyRange := where' cutoffs.daily
  let read := fun range dailyRange => totals range dailyRange (·.provider)
    (fun row => dayStartMs row.occurredAtMs) (usageSummaryColumns db.attribution)
  match ownerCondition toLowerCase db range scope with
  | some owner =>
    ⟨read range dailyRange, some (read (range.filter owner) (dailyRange.filter owner)), none⟩
  | none => ⟨read range dailyRange, none, some (principalTotals toLowerCase db.attribution range)⟩

/-! ## 3. From the rollups -/

def rollupOwnerCondition (rollups : Totals RollupKey Counter) (scope : UsageEventScope) :
    Option (RollupKey → Bool) :=
  match scope with
  | .admin => none
  | .credential owner => some fun key =>
    key.principalKey = "null" && key.principalNontext = 0 && key.credentialKey = String.ofList
      (Json.str owner).render
  | .principal owner =>
    match normalizeEmail toLowerCase owner with
    | none => some fun _ => false
    | some principal =>
      let keys := (rollups.rows.map fun t => t.key.principalKey).dedup
      let aliases := keys.filter fun key =>
        match Json.parseScalar key with
        | some (.str value) => normalizeEmail toLowerCase value = some principal
        | _ => false
      some fun key => aliases.contains key.principalKey

def keyText (key : String) : Option String := textValue (jsonExtract (Json.parseScalar key))

def rollupPrincipalTotals (range : List (Total RollupKey Counter)) : List PrincipalUsage :=
  let grouped := aggregate range (fun t => (keyText t.key.principalKey,
      if t.key.principalKey = "null" then keyText t.key.credentialKey else none))
    Total.counts
  mergePrincipalUsage (grouped.rows.map fun t =>
    { principalId := t.key.1.map (reportedPrincipal toLowerCase)
      credentialId := if t.key.1.isNone then t.key.2 else none
      summary := t.counts })

def snapshotFromRollups (db : UsageDb) (now : Int) (policyIds : List String)
    (scope : UsageEventScope) : UsageSnapshot :=
  let cutoffs := usageCutoffs now usageWindowDays
  let range := db.rollups.rows.filter fun t => policySelected policyIds t.key.policyId
  let daily := fun range : List (Total RollupKey Counter) =>
    range.filter fun t => cutoffs.daily ≤ t.key.dayStartMs
  let read := fun range => totals range (daily range) (·.key.provider) (·.key.dayStartMs) Total.counts
  match rollupOwnerCondition toLowerCase db.rollups scope with
  | some owner => ⟨read range, some (read (range.filter fun t => owner t.key)), none⟩
  | none => ⟨read range, none, some (rollupPrincipalTotals toLowerCase range)⟩

end Branches

/-! ## 4. Row by row -/

theorem day_in_range (now days : Int) {occurredAtMs : Int} (h : 0 ≤ occurredAtMs) :
    (usageCutoffs now days).daily ≤ dayStartMs occurredAtMs ↔ (usageCutoffs now days).daily ≤
      occurredAtMs := by
  unfold usageCutoffs dayStartMs usageDayMs
  rw [Int.tdiv_eq_ediv_of_nonneg h]
  dsimp only
  omega

section Rows

variable (M : CaseMapping) {migration : AttributionMigration} {row : UsageRow}

theorem not_pending (hcomplete : migration.complete = true) (row : UsageRow) :
    attributionPending migration row = false := by
  unfold attributionPending
  rw [hcomplete]
  rfl

theorem keyValues_current (hcomplete : migration.complete = true) (row : UsageRow) : keyValues migration row =
      { policyId := row.policyId, dayStartMs := dayStartMs row.occurredAtMs, provider := row.provider
        principalKey := jsonQuote (row.principalKey.or row.principalId), credentialKey :=
          jsonQuote row.credentialId
        principalNontext := row.principalNontext } := by
  unfold keyValues rowPrincipal rowCredential rowNontext
  rw [not_pending hcomplete]
  simp

theorem keyText_jsonQuote (value : Option String) : keyText (jsonQuote value) = value := by
  unfold keyText
  rw [parseScalar_jsonQuote]
  cases value <;> rfl

theorem jsonQuote_eq_null {value : Option String} : jsonQuote value = "null" ↔ value = none := by
  cases value with
  | none => simp [jsonQuote]
  | some s => simp [jsonQuote_ne_null s]

section

variable (hkey : row.principalKey = row.principalId.bind (normalizeEmail M.toLowerCase))
include hkey

theorem normalize_counted (principal : String) : (∃ value, row.principalKey.or row.principalId = some value ∧
      normalizeEmail M.toLowerCase value = some principal) ↔ row.principalKey = some principal := by
  cases hid : row.principalId with
  | none =>
    rw [hid] at hkey
    rw [show row.principalKey = none from hkey]
    simp
  | some id =>
    rw [hid] at hkey
    have hkey : row.principalKey = normalizeEmail M.toLowerCase id := hkey
    cases hn : normalizeEmail M.toLowerCase id with
    | none =>
      rw [hkey, hn]
      simp [hn]
    | some email =>
      rw [hkey, hn]
      have hidem := normalizeEmail_idem M hn
      simp [hidem]

theorem reported_counted : (row.principalKey.or row.principalId).map (reportedPrincipal M.toLowerCase) =
      row.principalId.map (reportedPrincipal M.toLowerCase) ∧
    (row.principalKey.or row.principalId = none ↔ row.principalId = none) := by
  cases hid : row.principalId with
  | none =>
    rw [hid] at hkey
    rw [show row.principalKey = none from hkey]
    simp
  | some id =>
    rw [hid] at hkey
    have hkey : row.principalKey = normalizeEmail M.toLowerCase id := hkey
    cases hn : normalizeEmail M.toLowerCase id with
    | none =>
      rw [hkey, hn]
      simp
    | some email =>
      rw [hkey, hn]
      have hidem := normalizeEmail_idem M hn
      simp [reportedPrincipal, hn, hidem]

end

end Rows

/-! ## 5. The branches agree -/

structure SameTotals (a b : UsageTotals) : Prop where
  summary : a.summary = b.summary
  providers : a.providers.Perm b.providers
  daily : a.daily.Perm b.daily

structure SameSnapshot (a b : UsageSnapshot) : Prop where
  totals : SameTotals a.totals b.totals
  personal : Option.Rel SameTotals a.personal b.personal
  principals : Option.Rel List.Perm a.principals b.principals

theorem usageSummaryColumns_eq (migration : AttributionMigration) :
    usageSummaryColumns migration = counterValues migration := by
  funext row c
  cases c <;> rfl

theorem counts_pos {migration : AttributionMigration} {rows : List UsageRow} :
    ∀ row ∈ rows, 0 < counterValues migration row .requestCount := by
  intro row _
  rw [counts_one]
  decide

/-- The identity a group is reported under in the end. -/
def mergedIdentity (toLowerCase : String → String) (principal credential : Option String) :
    Option String × Option String :=
  (principal.map (reportedPrincipal toLowerCase), if principal.isNone then credential else none)

theorem mergePrincipalUsage_aggregate (toLowerCase : String → String) {ρ κ : Type}
    [DecidableEq κ] {rows : List ρ} {groupOf : ρ → κ} {count : ρ → Counter → Int}
    (hpos : ∀ r ∈ rows, 0 < count r .requestCount) (principal credential : κ → Option String) :
    (mergePrincipalUsage ((aggregate rows groupOf count).rows.map fun t =>
      { principalId := (principal t.key).map (reportedPrincipal toLowerCase)
        credentialId := if (principal t.key).isNone then credential t.key else none, summary :=
          t.counts })).Perm
      ((aggregate rows (fun r => mergedIdentity toLowerCase (principal (groupOf r))
        (credential (groupOf r))) count).rows.map fun t => ⟨t.key.1, t.key.2, t.counts⟩) := by
  have hsums : Sums .requestCount rows groupOf count (aggregate rows groupOf count) :=
    sums_aggregate hpos
  have h := aggregate_all_totals hpos hsums fun k =>
    mergedIdentity toLowerCase (principal k) (credential k)
  refine List.Perm.map _ (List.Perm.trans ?_ h)
  have e : ∀ k, (PrincipalUsage.identity
      { principalId := (principal k).map (reportedPrincipal toLowerCase)
        credentialId := if (principal k).isNone then credential k else none
        summary := (0 : Counter → Int) }) =
      mergedIdentity toLowerCase (principal k) (credential k) := by
    intro k
    cases principal k <;> rfl
  unfold aggregate
  rw [List.map_map]
  refine List.Perm.of_eq (congrArg (fun l => (addPage Table.empty l).rows)
    (List.map_congr_left fun t _ => ?_))
  exact Prod.ext (e t.key) rfl

theorem rollup_identity (M : CaseMapping) {migration : AttributionMigration} {row : UsageRow}
    (hcomplete : migration.complete = true)
    (hkey : row.principalKey = row.principalId.bind (normalizeEmail M.toLowerCase)) :
    mergedIdentity M.toLowerCase (keyText (keyValues migration row).principalKey)
        (if (keyValues migration row).principalKey = "null" then
          keyText (keyValues migration row).credentialKey else none) =
      mergedIdentity M.toLowerCase row.principalId row.credentialId := by
  obtain ⟨hname, hnone⟩ := reported_counted M hkey
  rw [keyValues_current hcomplete]
  rw [keyText_jsonQuote, keyText_jsonQuote]
  unfold mergedIdentity
  rw [hname]
  refine congrArg (Prod.mk _) ?_
  generalize row.principalKey.or row.principalId = name at hnone
  cases name with
  | none =>
    rw [if_pos (jsonQuote_eq_null.mpr rfl), hnone.mp rfl]
  | some value =>
    cases hid : row.principalId with
    | none => nomatch hnone.mpr hid
    | some id => rfl

section Agree

variable (M : CaseMapping) {migration : AttributionMigration} {rows : List UsageRow}
  {rollups : Totals RollupKey Counter}

section

variable (hsums : Sums .requestCount rows (keyValues migration) (counterValues migration) rollups)
include hsums

theorem totals_agree
    {p d : RollupKey → Bool} {q w : UsageRow → Bool} (hp : ∀ row ∈ rows, p (keyValues migration row) = q row)
    (hd : ∀ row ∈ rows, d (keyValues migration row) = w row) : SameTotals
      (totals (rollups.rows.filter fun t => p t.key) (rollups.rows.filter fun t => d t.key)
        (·.key.provider) (·.key.dayStartMs) Total.counts) (totals (rows.filter q) (rows.filter w) (·.provider)
        (fun row => dayStartMs row.occurredAtMs) (usageSummaryColumns migration)) := by
  rw [usageSummaryColumns_eq]
  refine ⟨funext fun c => ?_, List.Perm.map _ ?_, List.Perm.map _ ?_⟩
  · refine (sum_totals counts_pos hsums p c).trans ?_
    exact congrArg (fun l : List UsageRow => (l.map fun row => counterValues migration row c).sum)
      (List.filter_congr hp)
  · exact aggregate_totals counts_pos hsums hp (f := RollupKey.provider) fun _ _ _ => rfl
  · exact aggregate_totals counts_pos hsums hd (f := RollupKey.dayStartMs) fun _ _ _ => rfl

theorem range_agrees (now : Int) (policyIds : List String) (htime : ∀ row ∈ rows, 0 ≤ row.occurredAtMs ∧
      (usageCutoffs now usageWindowDays).rolling ≤ row.occurredAtMs) {o : RollupKey → Bool}
        {w : UsageRow → Bool}
    (ho : ∀ row ∈ rows, o (keyValues migration row) = w row) : SameTotals
      (totals ((rollups.rows.filter fun t => policySelected policyIds t.key.policyId).filter fun t => o t.key)
        (((rollups.rows.filter fun t => policySelected policyIds t.key.policyId).filter
          fun t => o t.key).filter fun t => (usageCutoffs now usageWindowDays).daily ≤ t.key.dayStartMs)
        (·.key.provider) (·.key.dayStartMs) Total.counts)
      (totals ((rows.filter fun row => policySelected policyIds row.policyId &&
          (usageCutoffs now usageWindowDays).rolling ≤ row.occurredAtMs).filter w)
        ((rows.filter fun row => policySelected policyIds row.policyId &&
          (usageCutoffs now usageWindowDays).daily ≤ row.occurredAtMs).filter w)
        (·.provider) (fun row => dayStartMs row.occurredAtMs) (usageSummaryColumns migration)) := by
  simp only [List.filter_filter]
  refine totals_agree hsums (p := fun key => o key && policySelected policyIds key.policyId)
    (d := fun key => decide ((usageCutoffs now usageWindowDays).daily ≤ key.dayStartMs) &&
      (o key && policySelected policyIds key.policyId)) (fun row hrow => ?_) fun row hrow => ?_
  · rw [decide_eq_true (htime row hrow).2, Bool.and_true, ho row hrow]
    rfl
  · have hday : decide ((usageCutoffs now usageWindowDays).daily ≤ (keyValues migration row).dayStartMs) =
          decide ((usageCutoffs now usageWindowDays).daily ≤ row.occurredAtMs) :=
      decide_eq_decide.mpr (day_in_range now _ (htime row hrow).1)
    rw [hday, ho row hrow, Bool.and_comm, Bool.and_assoc]
    rfl

end

theorem principals_agree (hcomplete : migration.complete = true)
    (hkey : ∀ row ∈ rows, row.principalKey = row.principalId.bind (normalizeEmail M.toLowerCase))
    (hsums : Sums .requestCount rows (keyValues migration) (counterValues migration) rollups)
    {p : RollupKey → Bool} {q : UsageRow → Bool} (hp : ∀ row ∈ rows, p (keyValues migration row) = q row) :
    (rollupPrincipalTotals M.toLowerCase (rollups.rows.filter fun t => p t.key)).Perm
      (principalTotals M.toLowerCase migration (rows.filter q)) := by
  unfold rollupPrincipalTotals principalTotals
  rw [usageSummaryColumns_eq]
  refine (mergePrincipalUsage_aggregate M.toLowerCase (fun t ht => total_pos counts_pos hsums
    (List.mem_filter.mp ht).1) Prod.fst Prod.snd).trans ?_
  refine List.Perm.trans ?_ (mergePrincipalUsage_aggregate M.toLowerCase counts_pos Prod.fst
    fun k => textValue k.2).symm
  refine List.Perm.map _ (aggregate_totals counts_pos hsums hp (f := fun k =>
    mergedIdentity M.toLowerCase (keyText k.principalKey)
      (if k.principalKey = "null" then keyText k.credentialKey else none)) fun row hrow _ => ?_)
  refine (rollup_identity M hcomplete (hkey row hrow)).trans ?_
  simp only [not_pending hcomplete, Bool.false_eq_true, if_false]
  cases row.principalId with
  | some id => rfl
  | none => cases row.credentialId <;> rfl

theorem owner_agrees (hcomplete : migration.complete = true)
    (hkey : ∀ row ∈ rows, row.principalKey = row.principalId.bind (normalizeEmail M.toLowerCase))
    (hsums : Sums .requestCount rows (keyValues migration) (counterValues migration) rollups)
    {db : UsageDb} (hdb : db.attribution = migration) (range : List UsageRow)
    (scope : UsageEventScope) :
    match ownerCondition M.toLowerCase db range scope, rollupOwnerCondition M.toLowerCase rollups scope with
    | none, none => True
    | some owner, some rollupOwner =>
      ∀ row ∈ rows, rollupOwner (keyValues migration row) = owner row
    | _, _ => False := by
  cases scope with
  | admin => trivial
  | credential owner =>
    intro row hrow
    obtain ⟨-, hnone⟩ := reported_counted M (hkey row hrow)
    rw [keyValues_current hcomplete]
    dsimp only
    rw [hdb, not_pending hcomplete, if_neg Bool.false_ne_true]
    have hquote : String.ofList (Json.str owner).render = jsonQuote (some owner) := by
      simp [Json.render, jsonQuote]
    have hcredential : jsonQuote row.credentialId = String.ofList (Json.str owner).render ↔
        row.credentialId = some owner := by
      rw [hquote]
      exact ⟨jsonQuote_injective, congrArg jsonQuote⟩
    rw [Bool.eq_iff_iff]
    simp only [Bool.and_eq_true, decide_eq_true_eq, jsonQuote_eq_null, hnone, hcredential]
  | principal owner =>
    unfold ownerCondition rollupOwnerCondition
    dsimp only
    cases hnormal : normalizeEmail M.toLowerCase owner with
    | none => exact fun _ _ => rfl
    | some principal =>
      intro row hrow
      dsimp only
      rw [hdb, not_pending hcomplete, if_neg Bool.false_ne_true, Bool.eq_iff_iff,
        decide_eq_true_eq, ← normalize_counted M (hkey row hrow)]
      -- the key of the row is among the keys of the totals
      obtain ⟨t, ht, e⟩ := total_of_row counts_pos hsums hrow
      have hmem : (keyValues migration row).principalKey ∈
        (rollups.rows.map fun t => t.key.principalKey).dedup :=
        List.mem_dedup.mpr (List.mem_map.mpr ⟨t, ht, by rw [e]⟩)
      rw [List.contains_iff_mem, List.mem_filter]
      simp only [hmem, true_and]
      rw [keyValues_current hcomplete]
      rw [parseScalar_jsonQuote]
      cases row.principalKey.or row.principalId with
      | none | some value => simp

end Agree

theorem sums_of_run {toLowerCase : String → String} {db₀ db : UsageDb} {m : RollupMigration}
    (hrun : Relation.ReflTransGen (UsageStep toLowerCase) db₀ db)
    (hstart : db₀.rollupMigration = none) (hm : db.rollupMigration = some m) (hcomplete : m.complete = true) :
    Sums .requestCount db.events.rows (keyValues db.attribution) (counterValues db.attribution)
      db.rollups := by
  refine sums_of_exact ((inv_run hrun hstart).exact m hm) fun row _ => ?_
  unfold counted
  rw [hcomplete]
  rfl

/-- **The snapshot from the rollups has the rows of the snapshot from the events**, in every state
    that a run can reach with both migrations complete, if every event is in the rolling window
    and its columns are the ones of the current writer. -/
theorem snapshot_rollups_agree (M : CaseMapping) {db₀ db : UsageDb} {m : RollupMigration}
    (hrun : Relation.ReflTransGen (UsageStep M.toLowerCase) db₀ db)
    (hstart : db₀.rollupMigration = none) (hm : db.rollupMigration = some m)
    (hrollups : m.complete = true) (hattribution : db.attribution.complete = true) (now : Int)
    (hwriter : ∀ row ∈ db.events.rows, row.toAttribution = usageAttribution M.toLowerCase row.eventJson)
    (htime : ∀ row ∈ db.events.rows, 0 ≤ row.occurredAtMs ∧
      (usageCutoffs now usageWindowDays).rolling ≤ row.occurredAtMs)
    (policyIds : List String) (scope : UsageEventScope) :
    SameSnapshot (snapshotFromRollups M.toLowerCase db now policyIds scope)
      (snapshotFromEvents M.toLowerCase db now policyIds scope) := by
  have hsums := sums_of_run hrun hstart hm hrollups
  have hkey : ∀ row ∈ db.events.rows, row.principalKey = row.principalId.bind
    (normalizeEmail M.toLowerCase) := by
    intro row hrow
    have h := hwriter row hrow
    rw [show row.principalKey = row.toAttribution.principalKey from rfl,
      show row.principalId = row.toAttribution.principalId from rfl, h]
    rfl
  have hpolicy : ∀ row ∈ db.events.rows, policySelected policyIds (keyValues db.attribution row).policyId =
        (policySelected policyIds row.policyId &&
          decide ((usageCutoffs now usageWindowDays).rolling ≤ row.occurredAtMs)) := by
    intro row hrow
    rw [decide_eq_true (htime row hrow).2, Bool.and_true]
    rfl
  have howner := owner_agrees M hattribution hkey hsums (rfl : db.attribution = _)
    (db.events.rows.filter fun row => policySelected policyIds row.policyId &&
      (usageCutoffs now usageWindowDays).rolling ≤ row.occurredAtMs) scope
  unfold snapshotFromRollups snapshotFromEvents
  dsimp only
  generalize ownerCondition M.toLowerCase db _ scope = scan at howner ⊢
  generalize rollupOwnerCondition M.toLowerCase db.rollups scope = rollup at howner ⊢
  have hall := range_agrees hsums now policyIds htime (o := fun _ => true) (w := fun _ => true) fun _ _ => rfl
  simp only [List.filter_true] at hall
  match scan, rollup, howner with
  | none, none, _ =>
    have hprincipals := principals_agree M hattribution hkey hsums
      (p := fun key => policySelected policyIds key.policyId) hpolicy
    exact ⟨hall, .none, .some hprincipals⟩
  | some owner, some rollupOwner, howner =>
    exact ⟨hall, .some (range_agrees hsums now policyIds htime howner), .none⟩

section Example

def asciiLower (c : Char) : Char := if 65 ≤ c.toNat ∧ c.toNat ≤ 90 then Char.ofNat (c.toNat + 32) else c

theorem asciiLower_idem (c : Char) : asciiLower (asciiLower c) = asciiLower c := by
  have h : ∀ n < 91, 65 ≤ n → asciiLower (Char.ofNat (n + 32)) = Char.ofNat (n + 32) := by decide
  by_cases hc : 65 ≤ c.toNat ∧ c.toNat ≤ 90
  · have e : asciiLower c = Char.ofNat (c.toNat + 32) := if_pos hc
    rw [e]
    exact h c.toNat (by omega) hc.1
  · have e : asciiLower c = c := if_neg hc
    rw [e, e]

/-- ASCII letters only: enough for the names below. -/
def asciiCase : CaseMapping where
  toLowerCase :=
  fun s => String.ofList (s.toList.map asciiLower)
  idempotent := fun s => by
    rw [String.toList_ofList, List.map_map]
    refine congrArg String.ofList (List.map_congr_left fun c _ => ?_)
    exact asciiLower_idem c

/-- An event with an unnormalized principal, stored while both migrations are under way. -/
def aliasRow : UsageRow :=
  { (UsageRow.attributed asciiCase.toLowerCase
      { oldRow with eventJson := .obj [("principal_id", .str " Ada@Example.com")] }) with
    rowid := 2
    rowid_pos := newRow.rowid_pos
    id := "usage_2" }

def migratedDb : UsageDb :=
  ((oldDb.ensureUsageRollups.insertRow aliasRow).backfillAttribution
    asciiCase.toLowerCase).backfillUsageRollups

theorem snapshot_rollups_agree_migrated : SameSnapshot
    (snapshotFromRollups asciiCase.toLowerCase migratedDb 1700000001000 ["policy"]
      (.principal "ada@example.com"))
    (snapshotFromEvents asciiCase.toLowerCase migratedDb 1700000001000 ["policy"]
      (.principal "ada@example.com")) :=
  snapshot_rollups_agree asciiCase (m := ⟨1, 1, true⟩)
    ((((Relation.ReflTransGen.refl.tail .ensure).tail (.insert aliasRow)).tail .attribution).tail
      .rollups) rfl (by decide +kernel) rfl (by decide +kernel) 1700000001000 (by decide +kernel)
    (by decide +kernel) ["policy"] (.principal "ada@example.com")

end Example

end ClawRouter.Usage
