/-
  Subject:   Reading back what was quoted as JSON.

  `unescape` reads the characters of a JSON string, `parseScalar` a whole text that is `null` or
  one string. An escaped surrogate, which no quoting of well-formed text writes, is not read.

  * **`unescape_quote`**: a quoted string reads back as itself.
-/
import ClawRouter.Lib.SqlJson

namespace Js

namespace Json

def hexValue (c : Char) : Option Nat :=
  if 48 ≤ c.toNat ∧ c.toNat ≤ 57 then some (c.toNat - 48)
  else if 97 ≤ c.toNat ∧ c.toNat ≤ 102 then some (c.toNat - 87)
  else if 65 ≤ c.toNat ∧ c.toNat ≤ 70 then some (c.toNat - 55)
  else none

/-- The character that a backslash and one letter stand for. -/
def unescapeChar (c : Char) : Option Char :=
  if c = '"' ∨ c = '\\' ∨ c = '/' then some c
  else if c = 'b' then some (Char.ofNat 8)
  else if c = 't' then some (Char.ofNat 9)
  else if c = 'n' then some (Char.ofNat 10)
  else if c = 'f' then some (Char.ofNat 12)
  else if c = 'r' then some (Char.ofNat 13)
  else none

/-- The character that `\u` and four digits stand for. -/
def unescapeHex (a b c d : Char) : Option Char := do
  let n := (← hexValue a) * 4096 + (← hexValue b) * 256 + (← hexValue c) * 16 + (← hexValue d)
  if n.isValidChar then some (Char.ofNat n) else none

/-- The characters of a JSON string up to its closing quote, where the text ends. -/
def unescape : List Char → Option (List Char)
  | [] => none
  | ['"'] => some []
  | '\\' :: 'u' :: a :: b :: c :: d :: rest =>
    match unescapeHex a b c d, unescape rest with
    | some x, some s => some (x :: s)
    | _, _ => none
  | '\\' :: e :: rest =>
    match unescapeChar e, unescape rest with
    | some x, some s => some (x :: s)
    | _, _ => none
  | c :: rest => if c = '"' ∨ c.toNat < 32 then none else (unescape rest).map (c :: ·)

theorem hexValue_hexDigit : ∀ n < 16, hexValue (hexDigit n) = some n := by decide

theorem toNat_eq {c : Char} {n : Nat} (h : c.toNat = n) : c = Char.ofNat n := by
  rw [← h, Char.ofNat_toNat]

theorem unescapeHex_control {c : Char} (h : c.toNat < 32) :
    unescapeHex '0' '0' (hexDigit (c.toNat / 16)) (hexDigit (c.toNat % 16)) = some c := by
  have h0 : hexValue '0' = some 0 := by decide
  have hv : (0 * 4096 + 0 * 256 + c.toNat / 16 * 16 + c.toNat % 16) = c.toNat := by omega
  have hvalid : c.toNat.isValidChar := c.valid
  unfold unescapeHex
  rw [h0, hexValue_hexDigit _ (by omega), hexValue_hexDigit _ (by omega)]
  show (if (0 * 4096 + 0 * 256 + c.toNat / 16 * 16 + c.toNat % 16).isValidChar then _ else _) = _
  rw [hv, if_pos hvalid, Char.ofNat_toNat]

theorem unescape_escapeChar (c : Char) {rest s : List Char} (h : unescape rest = some s) :
    unescape (escapeChar c ++ rest) = some (c :: s) := by
  unfold escapeChar
  by_cases h1 : c = '"'
  · subst h1
    simp [unescape, unescapeChar, h]
  by_cases h2 : c = '\\'
  · subst h2
    simp [unescape, unescapeChar, h]
  rw [if_neg h1, if_neg h2]
  by_cases h3 : c.toNat = 8
  · rw [if_pos h3, toNat_eq h3]
    simp [unescape, unescapeChar, h]
  by_cases h4 : c.toNat = 9
  · rw [if_neg h3, if_pos h4, toNat_eq h4]
    simp [unescape, unescapeChar, h]
  by_cases h5 : c.toNat = 10
  · rw [if_neg h3, if_neg h4, if_pos h5, toNat_eq h5]
    simp [unescape, unescapeChar, h]
  by_cases h6 : c.toNat = 12
  · rw [if_neg h3, if_neg h4, if_neg h5, if_pos h6, toNat_eq h6]
    simp [unescape, unescapeChar, h]
  by_cases h7 : c.toNat = 13
  · rw [if_neg h3, if_neg h4, if_neg h5, if_neg h6, if_pos h7, toNat_eq h7]
    simp [unescape, unescapeChar, h]
  rw [if_neg h3, if_neg h4, if_neg h5, if_neg h6, if_neg h7]
  by_cases h8 : c.toNat < 32
  · rw [if_pos h8]
    show unescape ('\\' :: 'u' :: '0' :: '0' :: hexDigit (c.toNat / 16) :: hexDigit (c.toNat % 16) :: rest) = _
    rw [unescape, unescapeHex_control h8, h]
  · rw [if_neg h8]
    simp [unescape, h1, h2, h8, h]

/-- **A quoted string reads back as itself.** -/
theorem unescape_quote (s : List Char) : unescape (s.flatMap escapeChar ++ ['"']) = some s := by
  induction s with
  | nil => rfl
  | cons c s ih =>
    rw [List.flatMap_cons, List.append_assoc]
    exact unescape_escapeChar c ih

/-- One character inside a JSON string, and what follows it. -/
def readChar : List Char → Option (Char × List Char)
  | [] => none
  | '\\' :: 'u' :: a :: b :: c :: d :: rest => (unescapeHex a b c d).map (·, rest)
  | '\\' :: e :: rest => (unescapeChar e).map (·, rest)
  | c :: rest => if c = '"' ∨ c.toNat < 32 then none else some (c, rest)

theorem readChar_escapeChar (c : Char) (rest : List Char) :
    readChar (escapeChar c ++ rest) = some (c, rest) := by
  unfold escapeChar
  by_cases h1 : c = '"'
  · subst h1
    simp [readChar, unescapeChar]
  by_cases h2 : c = '\\'
  · subst h2
    simp [readChar, unescapeChar]
  rw [if_neg h1, if_neg h2]
  by_cases h3 : c.toNat = 8
  · rw [if_pos h3, toNat_eq h3]
    simp [readChar, unescapeChar]
  by_cases h4 : c.toNat = 9
  · rw [if_neg h3, if_pos h4, toNat_eq h4]
    simp [readChar, unescapeChar]
  by_cases h5 : c.toNat = 10
  · rw [if_neg h3, if_neg h4, if_pos h5, toNat_eq h5]
    simp [readChar, unescapeChar]
  by_cases h6 : c.toNat = 12
  · rw [if_neg h3, if_neg h4, if_neg h5, if_pos h6, toNat_eq h6]
    simp [readChar, unescapeChar]
  by_cases h7 : c.toNat = 13
  · rw [if_neg h3, if_neg h4, if_neg h5, if_neg h6, if_pos h7, toNat_eq h7]
    simp [readChar, unescapeChar]
  rw [if_neg h3, if_neg h4, if_neg h5, if_neg h6, if_neg h7]
  by_cases h8 : c.toNat < 32
  · rw [if_pos h8]
    show readChar ('\\' :: 'u' :: '0' :: '0' :: hexDigit (c.toNat / 16) :: hexDigit (c.toNat % 16) :: rest) = _
    rw [readChar, unescapeHex_control h8]
    rfl
  · rw [if_neg h8]
    simp [readChar, h1, h2, h8]

theorem readChar_quote (rest : List Char) : readChar ('"' :: rest) = none := rfl

theorem escaped_cancel {s t u v : List Char}
    (h : s.flatMap escapeChar ++ '"' :: u = t.flatMap escapeChar ++ '"' :: v) : s = t ∧ u = v := by
  induction s generalizing t with
  | nil =>
    cases t with
    | nil => exact ⟨rfl, (List.cons.inj h).2⟩
    | cons d t =>
      have h' := congrArg readChar h
      rw [List.flatMap_nil, List.nil_append, readChar_quote, List.flatMap_cons,
        List.append_assoc, readChar_escapeChar] at h'
      cases h'
  | cons c s ih =>
    have h' := congrArg readChar h
    rw [List.flatMap_cons, List.append_assoc, readChar_escapeChar] at h'
    cases t with
    | nil =>
      rw [List.flatMap_nil, List.nil_append, readChar_quote] at h'
      cases h'
    | cons d t =>
      rw [List.flatMap_cons, List.append_assoc, readChar_escapeChar, Option.some_inj, Prod.mk.injEq] at h'
      obtain ⟨e, hrest⟩ := ih h'.2
      exact ⟨by rw [h'.1, e], hrest⟩

theorem quote_cancel {s t u v : List Char} (h : quoteChars s ++ u = quoteChars t ++ v) : s = t ∧ u = v := by
  unfold quoteChars at h
  rw [List.cons_append, List.cons_append, List.append_assoc, List.append_assoc] at h
  exact escaped_cancel (List.cons.inj h).2

/-- `JSON.parse` of a text that is `null` or a string. -/
def parseScalar (text : String) : Option Json :=
  if text = "null" then some .null
  else
    match text.toList with
    | '"' :: rest => (unescape rest).map fun s => .str (String.ofList s)
    | _ => none

end Json

end Js

namespace Sqlite

open Js Json

theorem jsonQuote_ne_null (s : String) : jsonQuote (some s) ≠ "null" := by
  intro h
  have h' := congrArg String.toList h
  simp [jsonQuote, quoteChars] at h'

theorem parseScalar_jsonQuote (value : Option String) :
    parseScalar (jsonQuote value) = some ((value.map Json.str).getD .null) := by
  cases value with
  | none => rfl
  | some s =>
    unfold parseScalar
    rw [if_neg (jsonQuote_ne_null s)]
    simp [jsonQuote, quoteChars, unescape_quote]

theorem jsonQuote_injective {a b : Option String} (h : jsonQuote a = jsonQuote b) : a = b := by
  have h' := parseScalar_jsonQuote a
  rw [h, parseScalar_jsonQuote b] at h'
  cases a with
  | none =>
    cases b with
    | none => rfl
    | some t => cases h'
  | some s =>
    cases b with
    | none => cases h'
    | some t =>
      cases h'
      rfl

end Sqlite
