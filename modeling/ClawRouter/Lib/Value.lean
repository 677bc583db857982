/-
  Subject:   The values `JSON.parse` gives, with the numbers of JavaScript and texts of code units.

  * `text`, `split`, `trim`: the operations on texts.
-/
import ClawRouter.Lib.Json
import ClawRouter.Lib.Utf16
import Mathlib.Data.Int.Log
import Mathlib.Data.List.DropRight
import Mathlib.Data.Rat.Floor

namespace Js

open Utf16

/-! ## 1. Numbers -/

/-- A number of binary64; a finite one is its rational. -/
inductive Double
  | finite (value : Rat)
  | infinite (negative : Bool)
  | nan
  deriving DecidableEq

namespace Double

def halfEven (q : Rat) : Int :=
  let below := q.floor
  let part := q - below
  if part < 1 / 2 then below
  else if 1 / 2 < part then below + 1
  else if below % 2 = 0 then below else below + 1

def round (q : Rat) : Double :=
  if q = 0 then .finite 0
  else
    let exponent := max (Int.log 2 |q|) (-1022)
    let unit : Rat := 2 ^ (exponent - 52)
    let value := halfEven (q / unit) * unit
    if 2 ^ 1024 ≤ |value| then .infinite (decide (value < 0)) else .finite value

def add : Double → Double → Double
  | .finite a, .finite b => round (a + b)
  | .nan, _ => .nan
  | _, .nan => .nan
  | .infinite a, .infinite b => if a = b then .infinite a else .nan
  | .infinite a, .finite _ => .infinite a
  | .finite _, .infinite b => .infinite b

def zero : Double := .finite 0

def le : Double → Double → Bool
  | .finite a, .finite b => a ≤ b
  | .nan, _ => false
  | _, .nan => false
  | .infinite a, .infinite b => a || !b
  | .infinite a, .finite _ => a
  | .finite _, .infinite b => !b

def isInteger : Double → Bool
  | .finite q => q.den == 1
  | _ => false

def isSafeInteger : Double → Bool
  | .finite q => q.den == 1 && q.num.natAbs ≤ maxSafeInteger
  | _ => false

end Double

/-! ## 2. Texts -/

def text (s : String) : Text := s.toList.map fun c => UInt16.ofNat c.toNat

/-- The units of a literal, without its UTF-8 bytes. -/
theorem text_ofList (chars : List Char) : text (String.ofList chars) = chars.map fun c =>
    UInt16.ofNat c.toNat := by
  rw [text, String.toList_ofList]

/-- White space and line ends, as `trim` and `\s` have them. -/
def isSpace (u : UInt16) : Bool :=
  let n := u.toNat
  (9 ≤ n && n ≤ 13) || n == 0x20 || n == 0xa0 || n == 0x1680 || (0x2000 ≤ n && n ≤ 0x200a) || n == 0x2028 ||
    n == 0x2029 || n == 0x202f || n == 0x205f || n == 0x3000 || n == 0xfeff

def trim (t : Text) : Text := ((t.dropWhile isSpace).reverse.dropWhile isSpace).reverse

theorem trim_eq (t : Text) : trim t = (t.dropWhile isSpace).rdropWhile isSpace := rfl

theorem trim_trim (t : Text) : trim (trim t) = trim t := by
  rw [trim_eq, trim_eq]
  generalize hd : t.dropWhile isSpace = d
  have hstart : (d.rdropWhile isSpace).dropWhile isSpace = d.rdropWhile isSpace := by
    obtain ⟨rest, hrest⟩ := List.rdropWhile_prefix isSpace (l := d)
    cases hkept : d.rdropWhile isSpace with
    | nil => rfl
    | cons u us =>
      have hhead : ¬ isSpace u = true := by
        rw [hkept] at hrest
        intro hu
        have hself : d.dropWhile isSpace = d := by rw [← hd]; exact List.dropWhile_idempotent isSpace t
        rw [← hrest, List.cons_append, List.dropWhile_cons_of_pos hu] at hself
        have hle := (List.dropWhile_suffix isSpace (l := us ++ rest)).length_le
        rw [hself, List.length_cons] at hle
        omega
      exact List.dropWhile_cons_of_neg hhead
  rw [hstart, List.rdropWhile_idempotent]

/-- `t.split(separator)` for a separator of one unit. -/
def split (separator : UInt16) : Text → List Text
  | [] => [[]]
  | u :: rest =>
    if u = separator then [] :: split separator rest
    else
      match split separator rest with
      | [] => [[u]]
      | line :: lines => (u :: line) :: lines

/-- `texts.join(separator)` for a separator of one unit. -/
def join (separator : UInt16) : List Text → Text
  | [] => []
  | [t] => t
  | t :: rest => t ++ separator :: join separator rest

def startsWith (front t : Text) : Bool := front.isPrefixOf t

/-! ## 3. Values -/

/-- A JSON value as `JSON.parse` gives it. -/
inductive Value
  | null
  | bool (b : Bool)
  | num (n : Double)
  | str (s : Text)
  | arr (items : List Value)
  | obj (members : List (Text × Value))

abbrev Members := List (Text × Value)

/-- `members[name]`, none where it is undefined. -/
def get (members : Members) (name : String) : Option Value := members.lookup (text name)

def has (members : Members) (name : String) : Bool := (get members name).isSome

/-- `value != null && typeof value === "object" && !Array.isArray(value) ? value : null`. -/
def record : Option Value → Option Members
  | some (.obj members) => some members
  | _ => none

def nullish : Option Value → Option Value
  | some .null => none
  | value => value

def isText (value : Option Value) (name : String) : Bool :=
  match value with
  | some (.str s) => s == text name
  | _ => false

def textOf : Option Value → Option Text
  | some (.str s) => some s
  | _ => none

def truthy : Option Value → Bool
  | none => false
  | some .null => false
  | some (.bool b) => b
  | some (.num n) => !(n == .finite 0 || n == .nan)
  | some (.str s) => !s.isEmpty
  | some _ => true

def set (members : Members) (name : Text) (value : Value) : Members :=
  if members.any (·.1 == name) then members.map fun m => if m.1 == name then (name, value) else m
  else members ++ [(name, value)]

def assign (members updates : Members) : Members := updates.foldl (fun all m => set all m.1 m.2) members

end Js
