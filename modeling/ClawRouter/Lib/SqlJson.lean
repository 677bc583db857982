/-
  Subject:   The SQL values and the JSON functions of SQLite, as far as queries over stored JSON
             use them.

  `json_extract` turns a JSON text into a text, a number into a number, `true` and `false` into 1
  and 0, and an object or an array into its JSON text; a missing member and JSON `null` give NULL.

  * `jsonExtract_eq_text`: a text that is not written like an object or an array, or NULL, comes
    from a JSON text only.
-/
import ClawRouter.Lib.Json

namespace Sqlite

open Js

/-- A value of SQL. -/
inductive SqlValue
  | null
  | integer (n : Int)
  | real (text : String)
  | text (s : String)
  deriving DecidableEq

def jsonType : Option Json → Option String
  | none => none
  | some .null => some "null"
  | some (.bool true) => some "true"
  | some (.bool false) => some "false"
  | some (.int _) => some "integer"
  | some (.frac _) => some "real"
  | some (.str _) => some "text"
  | some (.arr _) => some "array"
  | some (.obj _) => some "object"

/-- `json_extract(value, path)`; an integer beyond 64 bits is read as a real. -/
def jsonExtract : Option Json → SqlValue
  | none => .null
  | some .null => .null
  | some (.bool b) => .integer (if b then 1 else 0)
  | some (.int n) =>
    if -9223372036854775808 ≤ n ∧ n ≤ 9223372036854775807 then .integer n
    else .real (toString n)
  | some (.frac value) => .real value.text
  | some (.str s) => .text s
  | some (.arr items) => .text (String.ofList (Json.arr items).render)
  | some (.obj members) => .text (String.ofList (Json.obj members).render)

/-- `CASE WHEN json_type(value, path) = 'text' THEN json_extract(value, path) END`. -/
def extractText (value : Option Json) : Option String :=
  if jsonType value = some "text" then
    match jsonExtract value with
    | .text s => some s
    | _ => none
  else none

theorem extractText_eq (value : Option Json) : extractText value = value.bind Json.str? := by
  match value with
  | none => rfl
  | some (.str s) => rfl
  | some (.bool b) => cases b <;> rfl
  | some .null | some (.int _) | some (.frac _) | some (.arr _) | some (.obj _) => rfl

def jsonQuote : Option String → String
  | none => "null"
  | some s => String.ofList (Json.quoteChars s.toList)

/-- A text that an object or an array can not be written as. -/
theorem jsonExtract_eq_text {value : Option Json} {s : String}
    (harr : s.toList.head? ≠ some '[') (hobj : s.toList.head? ≠ some '\x7b') :
    jsonExtract value = .text s ↔ value = some (.str s) := by
  constructor
  · intro h
    match value with
    | some (.str t) =>
      cases h
      rfl
    | some (.int n) =>
      simp only [jsonExtract] at h
      split at h <;> nomatch h
    | some (.arr items) =>
      cases h
      exact absurd (by simp [Json.render]) harr
    | some (.obj members) =>
      cases h
      exact absurd (by simp [Json.render]) hobj
  · rintro rfl
    rfl

end Sqlite
