/-
  Subject:   `HttpError` (src/worker/utils.ts) and the shapes of text the owners accept.

  * `isHex`, `isName`: the character classes of the identifiers.
-/
import ClawRouter.Lib.Fallible
import Mathlib.Algebra.GroupWithZero.Nat

namespace ClawRouter

/-- An error that is answered. -/
structure HttpError where
  status : Nat
  code : String
  message : String
  deriving DecidableEq

/-- What a function that may throw an `HttpError` ends with. -/
abbrev Answer (α : Type) := Except HttpError α

/-- `length` of a JavaScript string: its UTF-16 code units. -/
def utf16Length (s : String) : Nat :=
  (s.toList.map fun c => if c.toNat < 65536 then 1 else 2).sum

def isHex (length : Nat) (s : String) : Bool :=
  s.length = length && s.toList.all fun c => c.isDigit || ('a' ≤ c && c ≤ 'f')

/-- `[a-zA-Z0-9…]{1,n}`, with the characters of `more` besides letters and digits. -/
def isName (most : Nat) (more : String) (s : String) : Bool :=
  1 ≤ s.length && s.length ≤ most &&
    s.toList.all fun c => c.isAlphanum || more.toList.contains c

def isHexAfter (start : String) (length : Nat) (s : String) : Bool :=
  s.startsWith start && isHex length ((s.drop start.length).toString)

end ClawRouter
