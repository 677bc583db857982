/-
  Subject:   Conditions of SQL: true, false, or NULL where an operand is NULL.

  A `CASE WHEN` takes a branch only for true. So all that is needed of a condition is when it is
  true, and the lemmas say that for every connective.
-/
import Mathlib.Data.Option.Basic

namespace Sqlite

universe u v

abbrev Tri := Option Bool

def Tri.and : Tri → Tri → Tri
  | some false, _ => some false
  | _, some false => some false
  | some true, some true => some true
  | _, _ => none

def Tri.or : Tri → Tri → Tri
  | some true, _ => some true
  | _, some true => some true
  | some false, some false => some false
  | _, _ => none

def Tri.compare {α : Type u} (r : α → α → Bool) : Option α → Option α → Tri
  | some a, some b => some (r a b)
  | _, _ => none

def Tri.isNull {α : Type u} (value : Option α) : Tri := some value.isNone

def Tri.isNotNull {α : Type u} (value : Option α) : Tri := some value.isSome

def caseWhen {α : Type v} (condition : Tri) (a b : α) : α := if condition = some true then a else b

section Truth

variable {a b : Tri}

@[simp] theorem Tri.and_eq_true : a.and b = some true ↔ a = some true ∧ b = some true := by
  rcases a with - | - | - <;> rcases b with - | - | - <;> simp [Tri.and]

@[simp] theorem Tri.or_eq_true : a.or b = some true ↔ a = some true ∨ b = some true := by
  rcases a with - | - | - <;> rcases b with - | - | - <;> simp [Tri.or]

@[simp] theorem Tri.compare_eq_true {α : Type u} {r : α → α → Bool} {x y : Option α} :
    Tri.compare r x y = some true ↔ ∃ a b, x = some a ∧ y = some b ∧ r a b = true := by
  cases x <;> cases y <;> simp [Tri.compare]

@[simp] theorem Tri.isNull_eq_true {α : Type u} {x : Option α} : Tri.isNull x = some true ↔ x = none := by
  cases x <;> simp [Tri.isNull]

@[simp] theorem Tri.isNotNull_eq_true {α : Type u} {x : Option α} :
    Tri.isNotNull x = some true ↔ ∃ a, x = some a := by
  cases x <;> simp [Tri.isNotNull]

end Truth

end Sqlite
