/-
  Subject:   Programs that wait for the answers of others.

  A program has ended, with a value or a throw, or it makes a call and goes on with what the call
  answers; the answer may be a throw as well. Who answers, and how, is not said by the program. It
  is said by rules: which calls may be made in a view of the world, and what the answers may be.

  * `Follows.next`: what one answer leaves of a program.
-/
import Mathlib.Data.List.Basic

namespace Awaiting

universe u

/-- A program over the calls `Call`: it has ended, or it goes on with an answer. -/
inductive Await (Call : Type u) (Answer : Call → Type) (ε : Type) (α : Type)
  | done (result : Except ε α)
  | call (c : Call) (next : Except ε (Answer c) → Await Call Answer ε α)

namespace Await

variable {Call : Type u} {Answer : Call → Type} {ε α β : Type}

/-- What follows a program that has ended well; a throw ends it. -/
def andThen (p : Await Call Answer ε α) (f : α → Await Call Answer ε β) : Await Call Answer ε β :=
  match p with
  | .done (.ok a) => f a
  | .done (.error e) => .done (.error e)
  | .call c next => .call c fun r => (next r).andThen f

instance : Monad (Await Call Answer ε) where
  pure a := .done (.ok a)
  bind := andThen

def ask (c : Call) : Await Call Answer ε (Answer c) := .call c .done

def lift (r : Except ε α) : Await Call Answer ε α := .done r

def attempt (p : Await Call Answer ε α) (handler : ε → Await Call Answer ε α) : Await Call Answer ε α :=
  match p with
  | .done (.ok a) => .done (.ok a)
  | .done (.error e) => handler e
  | .call c next => .call c fun r => (next r).attempt handler

def result (p : Await Call Answer ε α) : Await Call Answer ε (Except ε α) :=
  match p with
  | .done r => .done (.ok r)
  | .call c next => .call c fun r => (next r).result

/-- `try { p } finally { last }`; `last` may read what `p` ended with. -/
def always (p : Await Call Answer ε α) (last : Except ε α → Await Call Answer ε PUnit) :
    Await Call Answer ε α := do
  let r ← p.result
  last r
  lift r

end Await

open Await

/-! ## 1. Rules -/

/-- What may be called in a view of the world, and what a call may answer. -/
structure Rules (Call : Type u) (Answer : Call → Type) (ε : Type) (σ : Type*) where
  allowed : σ → Call → Prop
  answers : σ → (c : Call) → Except ε (Answer c) → σ → Prop

variable {Call : Type u} {Answer : Call → Type} {ε α β : Type} {σ : Type*}

/-- From the view `s` on, the program makes only calls it may make, and it ends with `Q`. -/
def Follows (R : Rules Call Answer ε σ) : Await Call Answer ε α → σ → (Except ε α → σ → Prop) → Prop
  | .done r, s, Q => Q r s
  | .call c next, s, Q => R.allowed s c ∧ ∀ r s', R.answers s c r s' → Follows R (next r) s' Q

section Follows

variable {R : Rules Call Answer ε σ} {s : σ}

/-- **One answer leaves a program that still follows its rules.** -/
theorem Follows.next {c : Call} {next : Except ε (Answer c) → Await Call Answer ε α}
    {Q : Except ε α → σ → Prop} (h : Follows R (.call c next) s Q) {r : Except ε (Answer c)} {s' : σ}
    (hr : R.answers s c r s') : Follows R (next r) s' Q := h.2 r s' hr

theorem Follows.allowed {c : Call} {next : Except ε (Answer c) → Await Call Answer ε α}
    {Q : Except ε α → σ → Prop} (h : Follows R (.call c next) s Q) : R.allowed s c := h.1

theorem Follows.mono {p : Await Call Answer ε α} {Q Q' : Except ε α → σ → Prop}
    (h : Follows R p s Q) (hQ : ∀ r s', Q r s' → Q' r s') : Follows R p s Q' := by
  induction p generalizing s with
  | done r => exact hQ r s h
  | call c next ih =>
    refine ⟨h.1, fun r s' hr => ?_⟩
    exact ih r (h.2 r s' hr)

theorem follows_pure {a : α} {Q : Except ε α → σ → Prop} (h : Q (.ok a) s) :
    Follows R (pure a : Await Call Answer ε α) s Q := h

theorem follows_lift {r : Except ε α} {Q : Except ε α → σ → Prop} (h : Q r s) :
    Follows R (lift r : Await Call Answer ε α) s Q := h

theorem follows_ask {c : Call} {Q : Except ε (Answer c) → σ → Prop} (ha : R.allowed s c)
    (h : ∀ r s', R.answers s c r s' → Q r s') :
    Follows R (ask c : Await Call Answer ε (Answer c)) s Q := ⟨ha, fun r s' hr => h r s' hr⟩

/-- What a program must end with for what comes after it. -/
def Then (R : Rules Call Answer ε σ) (f : α → Await Call Answer ε β) (Q : Except ε β → σ → Prop) :
    Except ε α → σ → Prop
  | .ok a, s => Follows R (f a) s Q
  | .error e, s => Q (.error e) s

theorem follows_bind {p : Await Call Answer ε α} {f : α → Await Call Answer ε β}
    {Q : Except ε β → σ → Prop} (h : Follows R p s (Then R f Q)) : Follows R (p >>= f) s Q := by
  induction p generalizing s with
  | done r =>
    cases r with
    | ok a | error e => exact h
  | call c next ih =>
    refine ⟨h.1, fun r s' hr => ?_⟩
    exact ih r (h.2 r s' hr)

theorem Follows.bind {p : Await Call Answer ε α} {f : α → Await Call Answer ε β}
    {P : Except ε α → σ → Prop} {Q : Except ε β → σ → Prop} (h : Follows R p s P)
    (hok : ∀ a s', P (.ok a) s' → Follows R (f a) s' Q)
    (herr : ∀ e s', P (.error e) s' → Q (.error e) s') : Follows R (p >>= f) s Q := by
  refine follows_bind (h.mono fun r s' hr => ?_)
  cases r with
  | ok a => exact hok a s' hr
  | error e => exact herr e s' hr

theorem follows_lift_bind {r : Except ε α} {f : α → Await Call Answer ε β}
    {Q : Except ε β → σ → Prop} (hok : ∀ a, r = .ok a → Follows R (f a) s Q)
    (herr : ∀ e, r = .error e → Q (.error e) s) : Follows R (lift r >>= f) s Q := by
  cases r with
  | ok a => exact hok a rfl
  | error e => exact herr e rfl

theorem follows_ask_bind {c : Call} {f : Answer c → Await Call Answer ε β}
    {Q : Except ε β → σ → Prop} (ha : R.allowed s c)
      (hok : ∀ a s', R.answers s c (.ok a) s' → Follows R (f a) s' Q)
    (herr : ∀ e s', R.answers s c (.error e) s' → Q (.error e) s') : Follows R (ask c >>= f) s Q := by
  refine follows_bind (follows_ask ha fun r s' hr => ?_)
  cases r with
  | ok a => exact hok a s' hr
  | error e => exact herr e s' hr

/-- What a program must end with for the handler of its throws. -/
def Else (R : Rules Call Answer ε σ) (handler : ε → Await Call Answer ε α)
    (Q : Except ε α → σ → Prop) : Except ε α → σ → Prop
  | .ok a, s => Q (.ok a) s
  | .error e, s => Follows R (handler e) s Q

theorem follows_attempt {p : Await Call Answer ε α} {handler : ε → Await Call Answer ε α}
    {Q : Except ε α → σ → Prop} (h : Follows R p s (Else R handler Q)) :
    Follows R (p.attempt handler) s Q := by
  induction p generalizing s with
  | done r =>
    cases r with
    | ok a | error e => exact h
  | call c next ih =>
    refine ⟨h.1, fun r s' hr => ?_⟩
    exact ih r (h.2 r s' hr)

theorem Follows.attempt {p : Await Call Answer ε α} {handler : ε → Await Call Answer ε α}
    {P Q : Except ε α → σ → Prop} (h : Follows R p s P) (hok : ∀ a s', P (.ok a) s' → Q (.ok a) s')
    (herr : ∀ e s', P (.error e) s' → Follows R (handler e) s' Q) : Follows R (p.attempt handler) s Q := by
  refine follows_attempt (h.mono fun r s' hr => ?_)
  cases r with
  | ok a => exact hok a s' hr
  | error e => exact herr e s' hr

theorem follows_result {p : Await Call Answer ε α} {Q : Except ε (Except ε α) → σ → Prop}
    (h : Follows R p s fun r s' => Q (.ok r) s') : Follows R p.result s Q := by
  induction p generalizing s with
  | done r => exact h
  | call c next ih =>
    refine ⟨h.1, fun r s' hr => ?_⟩
    exact ih r (h.2 r s' hr)

end Follows

/-- What `finally` must end with: a throw of its own replaces what the program ended with. -/
def Finally (Q : Except ε α → σ → Prop) (r : Except ε α) : Except ε PUnit → σ → Prop
  | .ok _, s => Q r s
  | .error e, s => Q (.error e) s

theorem Follows.always {R : Rules Call Answer ε σ} {s : σ} {p : Await Call Answer ε α}
    {last : Except ε α → Await Call Answer ε PUnit} {P Q : Except ε α → σ → Prop} (h : Follows R p s P)
    (hlast : ∀ r s', P r s' → Follows R (last r) s' (Finally Q r)) : Follows R (p.always last) s Q := by
  refine follows_bind (follows_result (h.mono fun r s' hr => ?_))
  refine follows_bind ((hlast r s' hr).mono fun o s'' ho => ?_)
  cases o with
  | ok _ | error e => exact ho

end Awaiting
