/-
  Subject:   The rows of `usage_events` (src/worker/ledgers.ts), who a row is attributed to, and the
             migration that fills the attribution columns of rows older than them.

  A row stores its event as JSON and, in columns of their own, the principal, the credential and
  the cost basis of the event. Rows that the migration has not visited yet have no such columns to
  rely on, and queries read their JSON instead (`attributionPending`).

  * `UsageRow`, `AttributionMigration`: a row and the progress of the migration.

  The case mapping of JavaScript strings is a parameter, `toLowerCase`.
-/
import ClawRouter.Http
import ClawRouter.Lib.Keyed
import ClawRouter.Lib.SqlJson
import Mathlib.Data.List.DropRight

namespace ClawRouter.Usage

open Js Sqlite

/-! ## 1. Principals -/

def isSpace (c : Char) : Bool :=
  let n := c.toNat
  (9 ≤ n && n ≤ 13) || n == 32 || n == 160 || n == 5760 || (8192 ≤ n && n ≤ 8202) || n == 8232 ||
    n == 8233 || n == 8239 || n == 8287 || n == 12288 || n == 65279

def trim (s : String) : String :=
  String.ofList (((s.toList.dropWhile isSpace).reverse.dropWhile isSpace).reverse)

def looksLikeEmail (s : String) : Bool :=
  s.toList.all (fun c => !isSpace c) && s.toList.count '@' == 1 &&
    s.toList.head? != some '@' && s.toList.getLast? != some '@'

def normalizeEmail (toLowerCase : String → String) (value : String) : Option String :=
  let email := toLowerCase (trim value)
  if utf16Length email ≤ 320 ∧ looksLikeEmail email then some email else none

/-- The case mapping of JavaScript strings, and the one thing relied on: lower case stays as it
    is. -/
structure CaseMapping where
  toLowerCase : String → String
  idempotent : ∀ s, toLowerCase (toLowerCase s) = toLowerCase s

theorem trim_of_no_space {s : String} (h : s.toList.all (fun c => !isSpace c) = true) : trim s = s := by
  have hdrop : ∀ l : List Char, (∀ c ∈ l, isSpace c = false) → l.dropWhile isSpace = l := by
    intro l hl
    cases l with
    | nil => rfl
    | cons c l =>
      refine List.dropWhile_cons_of_neg ?_
      rw [hl c List.mem_cons_self]
      exact Bool.false_ne_true
  have hall : ∀ c ∈ s.toList, isSpace c = false := by simpa using h
  unfold trim
  rw [hdrop _ hall, hdrop _ fun c hc => hall c (List.mem_reverse.mp hc), List.reverse_reverse]
  exact String.ofList_toList

theorem trim_trim (s : String) : trim (trim s) = trim s := by
  have hstart : ∀ l : List Char, ((l.dropWhile isSpace).rdropWhile isSpace).dropWhile isSpace =
      (l.dropWhile isSpace).rdropWhile isSpace := by
    intro l
    refine List.dropWhile_eq_self_iff.mpr fun hpos => ?_
    have hprefix := List.rdropWhile_prefix isSpace (l := l.dropWhile isSpace)
    have hlen : 0 < (l.dropWhile isSpace).length := Nat.lt_of_lt_of_le hpos hprefix.length_le
    rw [List.IsPrefix.getElem hprefix hpos]
    exact List.dropWhile_get_zero_not isSpace l hlen
  have hend := List.rdropWhile_idempotent isSpace (s.toList.dropWhile isSpace)
  show String.ofList (((String.ofList ((s.toList.dropWhile isSpace).rdropWhile isSpace)).toList.dropWhile
    isSpace).rdropWhile isSpace) = _
  rw [String.toList_ofList, hstart, hend]
  rfl

theorem normalizeEmail_idem (M : CaseMapping) {value email : String}
    (h : normalizeEmail M.toLowerCase value = some email) :
    normalizeEmail M.toLowerCase email = some email := by
  unfold normalizeEmail at h
  dsimp only at h
  split at h
  · rename_i hemail
    cases h
    have hspace : (M.toLowerCase (trim value)).toList.all (fun c => !isSpace c) = true := by
      have := hemail.2
      unfold looksLikeEmail at this
      simp only [Bool.and_eq_true] at this
      exact this.1.1.1
    unfold normalizeEmail
    rw [trim_of_no_space hspace, M.idempotent]
    exact if_pos hemail
  · cases h

/-! ## 2. Rows -/

/-- Whose usage a row is. -/
structure Attribution where
  principalId : Option String
  principalKey : Option String
  credentialId : Option String
  costBasis : Option String
  principalNontext : Int
  deriving DecidableEq

def usageAttribution (toLowerCase : String → String) (event : Json) : Attribution :=
  let principal := (event.get? "principal_id").bind Json.str?
  { principalId := principal
    principalKey := principal.bind (normalizeEmail toLowerCase)
    credentialId := (event.get? "credential_id").bind Json.str?
    costBasis := (event.get? "cost_basis").bind Json.str?
    principalNontext :=
      if Json.present (event.get? "principal_id") ∧ principal = none then 1 else 0 }

/-- A row of `usage_events`, as far as the totals read it. SQLite numbers rows from 1. -/
structure UsageRow extends Attribution where
  rowid : Int
  rowid_pos : 0 < rowid
  id : String
  occurredAtMs : Int
  policyId : String
  provider : String
  status : String
  inputTokens : Option Int
  outputTokens : Option Int
  totalTokens : Option Int
  actualCostMicros : Int
  eventJson : Json

/-- The row of `usage_attribution_migration`. -/
structure AttributionMigration where
  lastRowid : Int
  upperRowid : Int
  complete : Bool
  deriving DecidableEq

def attributionPending (migration : AttributionMigration) (row : UsageRow) : Bool :=
  !migration.complete && migration.lastRowid < row.rowid && row.rowid ≤ migration.upperRowid

def usageAttributionBatchSize : Nat := 250

/-! ## 3. What a pending row is attributed to -/

def eventText (row : UsageRow) (name : String) : Option String := extractText (row.eventJson.get? name)

theorem eventText_eq (row : UsageRow) (name : String) :
    eventText row name = (row.eventJson.get? name).bind Json.str? :=
  extractText_eq _

/-- The member is there and is neither a text nor null. -/
def eventNontext (row : UsageRow) (name : String) : Bool :=
  match jsonType (row.eventJson.get? name) with
  | none => false
  | some type => type != "text" && type != "null"

theorem eventNontext_eq (row : UsageRow) (name : String) :
    eventNontext row name = true ↔ Json.present (row.eventJson.get? name) = true ∧
      (row.eventJson.get? name).bind Json.str? = none := by
  unfold eventNontext
  cases h : row.eventJson.get? name with
  | none => simp [Json.present, jsonType]
  | some value =>
    cases value with
    | bool b => cases b <;> simp [Json.present, jsonType, Json.str?]
    | null | int | frac | str | arr | obj => simp [Json.present, jsonType, Json.str?]

end ClawRouter.Usage
