/-
  Subject:   JSON values as a JavaScript program holds them after `JSON.parse`, and what
             `JSON.stringify` writes of them.

  Numbers are told apart by what is written of them: `int` is a number written as plain digits,
  `frac` every other one, with its text. A number is a safe integer only if it is an `int`, and it
  is an integer to a SQL engine exactly if it is an `int`.

  * `hasKey`, `anyObject`: searches through a whole value.
-/
import Mathlib.Algebra.GroupWithZero.Nat

namespace Js

/-- `Number.MAX_SAFE_INTEGER`. -/
def maxSafeInteger : Nat := 9007199254740991

/-- What is written of a number that is not plain digits. -/
structure Fraction where
  text : String
  numeric : text.toList.head?.any (fun c => c.isDigit || c = '-') = true

/-- A JSON value whose texts are strings, as the tables store it. -/
inductive Json
  | null
  | bool (b : Bool)
  | int (n : Int)
  | frac (value : Fraction)
  | str (s : String)
  | arr (items : List Json)
  | obj (members : List (String × Json))

namespace Json

/-- `value[name]` of an object; no other value has members. -/
def get? : Json → String → Option Json
  | .obj members, name => members.lookup name
  | _, _ => none

def str? : Json → Option String
  | .str s => some s
  | _ => none

/-- `value != null` for a member that may be missing. -/
def present : Option Json → Bool
  | none => false
  | some .null => false
  | some _ => true

/-- The items of `value` where `Array.isArray(value)`. -/
def items : Option Json → List Json
  | some (.arr items) => items
  | _ => []

def isObject : Option Json → Bool
  | some (.obj _) => true
  | _ => false

section Search

mutual

/-- Some object inside the value, at any depth, meets `p`. -/
def anyObject (p : List (String × Json) → Bool) : Json → Bool
  | .arr items => anyObjectItems p items
  | .obj members => p members || anyObjectMembers p members
  | _ => false

def anyObjectItems (p : List (String × Json) → Bool) : List Json → Bool
  | [] => false
  | item :: rest => anyObject p item || anyObjectItems p rest

def anyObjectMembers (p : List (String × Json) → Bool) : List (String × Json) → Bool
  | [] => false
  | (_, item) :: rest => anyObject p item || anyObjectMembers p rest

end

theorem anyObjectItems_eq (p : List (String × Json) → Bool) (items : List Json) :
    anyObjectItems p items = items.any (anyObject p) := by
  induction items with
  | nil => rfl
  | cons item rest ih => rw [anyObjectItems, ih, List.any_cons]

theorem anyObjectMembers_eq (p : List (String × Json) → Bool) (members : List (String × Json)) :
    anyObjectMembers p members = members.any fun m => anyObject p m.2 := by
  induction members with
  | nil => rfl
  | cons m rest ih => rw [anyObjectMembers, ih, List.any_cons]

end Search

section Render

def hexDigit (n : Nat) : Char := if n < 10 then Char.ofNat (48 + n) else Char.ofNat (87 + n)

def escapeChar (c : Char) : List Char :=
  if c = '"' then ['\\', '"']
  else if c = '\\' then ['\\', '\\']
  else if c.toNat = 8 then ['\\', 'b']
  else if c.toNat = 9 then ['\\', 't']
  else if c.toNat = 10 then ['\\', 'n']
  else if c.toNat = 12 then ['\\', 'f']
  else if c.toNat = 13 then ['\\', 'r']
  else if c.toNat < 32 then
    ['\\', 'u', '0', '0', hexDigit (c.toNat / 16), hexDigit (c.toNat % 16)]
  else [c]

def quoteChars (s : List Char) : List Char := '"' :: s.flatMap escapeChar ++ ['"']

mutual

def render : Json → List Char
  | .null => ['n', 'u', 'l', 'l']
  | .bool true => ['t', 'r', 'u', 'e']
  | .bool false => ['f', 'a', 'l', 's', 'e']
  | .int n => (toString n).toList
  | .frac value => value.text.toList
  | .str s => quoteChars s.toList
  | .arr items => '[' :: renderItems items ++ [']']
  | .obj members => '\x7b' :: renderMembers members ++ ['\x7d']

def renderItems : List Json → List Char
  | [] => []
  | [item] => render item
  | item :: rest => render item ++ ',' :: renderItems rest

def renderMembers : List (String × Json) → List Char
  | [] => []
  | [(name, item)] => quoteChars name.toList ++ ':' :: render item
  | (name, item) :: rest =>
    quoteChars name.toList ++ ':' :: render item ++ ',' :: renderMembers rest

end

/-- The bytes of `JSON.stringify(value)` in UTF-8. -/
def byteSize (value : Json) : Nat := ((render value).map Char.utf8Size).sum

end Render

end Json

end Js
