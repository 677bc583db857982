/-
  Subject:   Computations that end with a value or with an error, as code that throws does.

  * `mapM_ok`: calls that all end well.
-/
import Mathlib.Logic.Basic

namespace Fallible

universe u v

variable {ε : Type u} {α β : Type v}

def require (c : Bool) (e : ε) : Except ε Unit := if c then .ok () else .error e

/-- The value, or the error where there is none. -/
def demand (value : Option α) (e : ε) : Except ε α :=
  match value with
  | some a => .ok a
  | none => .error e

theorem bind_ok {x : Except ε α} {f : α → Except ε β} {b : β} :
    (x >>= f) = .ok b ↔ ∃ a, x = .ok a ∧ f a = .ok b := by
  cases x with
  | ok a =>
    constructor
    · intro h
      exact ⟨a, rfl, h⟩
    · rintro ⟨a', e, h⟩
      cases e
      exact h
  | error e =>
    constructor
    · intro h
      cases h
    · rintro ⟨_, h, _⟩
      cases h

theorem bind_error {x : Except ε α} {f : α → Except ε β} {e : ε} :
    (x >>= f) = .error e ↔ x = .error e ∨ ∃ a, x = .ok a ∧ f a = .error e := by
  cases x with
  | ok a =>
    constructor
    · intro h
      exact .inr ⟨a, rfl, h⟩
    · rintro (h | ⟨a', h, hf⟩)
      · cases h
      · cases h
        exact hf
  | error e' =>
    constructor
    · intro h
      cases h
      exact .inl rfl
    · rintro (h | ⟨_, h, _⟩)
      · cases h
        rfl
      · cases h

theorem require_ok {c : Bool} {e : ε} {u : Unit} : require c e = .ok u ↔ c = true := by
  cases c with
  | true => exact ⟨fun _ => rfl, fun _ => rfl⟩
  | false =>
    constructor
    · intro h
      cases h
    · intro h
      cases h

theorem demand_ok {value : Option α} {e : ε} {a : α} : demand value e = .ok a ↔ value = some a := by
  cases value with
  | some b =>
    constructor
    · intro h
      cases h
      rfl
    · intro h
      cases h
      rfl
  | none =>
    constructor
    · intro h
      cases h
    · intro h
      cases h

theorem pure_ok {a b : α} : (pure a : Except ε α) = .ok b ↔ a = b := by
  constructor
  · intro h
    cases h
    rfl
  · rintro rfl
    rfl

/-- A call for each item, none of which throws. -/
theorem mapM_ok {f : α → Except ε β} {g : α → β} {l : List α} (h : ∀ a ∈ l, f a = .ok (g a)) :
    l.mapM f = .ok (l.map g) := by
  induction l with
  | nil => rfl
  | cons a l ih =>
    rw [List.mapM_cons, h a List.mem_cons_self, ih fun a ha => h a (List.mem_cons_of_mem _ ha)]
    rfl

end Fallible
