/-
  Subject:   Commands on a state that may throw, where what was written before the throw stays
             written.

  A command takes the state before to its answer and the state after. A relation between states is
  kept by a command if it holds between the state before and the state after, whatever the answer.

  * `bind_ok`: a command that ended well, taken apart.
-/
import Mathlib.Logic.Basic

namespace Commands

universe u v

/-- From the state before to the answer and the state after. -/
def Command (σ : Type u) (ε α : Type v) : Type max u v := σ → Except ε α × σ

variable {σ : Type u} {ε α β : Type v}

namespace Command

def andThen (c : Command σ ε α) (f : α → Command σ ε β) : Command σ ε β :=
  fun s =>
  match c s with
  | (.ok a, s') => f a s'
  | (.error e, s') => (.error e, s')

instance : Monad (Command σ ε) where
  pure a := fun s => (.ok a, s)
  bind := andThen

def query (g : σ → α) : Command σ ε α := fun s => (.ok (g s), s)

def update (f : σ → σ) : Command σ ε PUnit := fun s => (.ok ⟨⟩, f s)

def fail (e : ε) : Command σ ε α := fun s => (.error e, s)

def lift (x : Except ε α) : Command σ ε α := fun s => (x, s)

def attempt (c : Command σ ε α) (handler : ε → Command σ ε α) : Command σ ε α :=
  fun s =>
  match c s with
  | (.ok a, s') => (.ok a, s')
  | (.error e, s') => handler e s'

end Command

open Command

/-! ## 1. What a command keeps -/

/-- From the state `s` on, the command keeps `R`. -/
def KeepsAt (R : σ → σ → Prop) (c : Command σ ε α) (s : σ) : Prop := R s (c s).2

def Keeps (R : σ → σ → Prop) (c : Command σ ε α) : Prop := ∀ s, KeepsAt R c s

section Rules

variable {R : σ → σ → Prop}

theorem keeps_pure (hr : ∀ s, R s s) (a : α) : Keeps R (pure a : Command σ ε α) := fun s => hr s

theorem KeepsAt.bind (ht : ∀ s s' s'', R s s' → R s' s'' → R s s'') {c : Command σ ε α}
    {f : α → Command σ ε β} {s : σ} (hc : KeepsAt R c s)
    (hf : ∀ a s', c s = (.ok a, s') → KeepsAt R (f a) s') : KeepsAt R (c >>= f) s := by
  show R s (andThen c f s).2
  unfold andThen
  cases e : c s with
  | mk answer s' =>
    have hc : R s s' := by
      have := hc
      unfold KeepsAt at this
      rw [e] at this
      exact this
    cases answer with
    | ok a => exact ht _ _ _ hc (hf a s' e)
    | error _ => exact hc

theorem keepsAt_query_bind {g : σ → α} {f : α → Command σ ε β} {s : σ}
    (h : KeepsAt R (f (g s)) s) : KeepsAt R (query g >>= f) s := h

theorem keepsAt_lift_bind (hr : ∀ s, R s s) {x : Except ε α} {f : α → Command σ ε β} {s : σ}
    (h : ∀ a, x = .ok a → KeepsAt R (f a) s) : KeepsAt R (lift x >>= f) s := by
  cases hx : x with
  | ok a => exact h a hx
  | error e => exact hr s

theorem keeps_attempt (ht : ∀ s s' s'', R s s' → R s' s'' → R s s'') {c : Command σ ε α}
    {handler : ε → Command σ ε α} (hc : Keeps R c) (hh : ∀ e, Keeps R (handler e)) :
    Keeps R (attempt c handler) := by
  intro s
  have hc := hc s
  unfold KeepsAt at hc
  unfold KeepsAt attempt
  cases e : c s with
  | mk answer s' =>
    rw [e] at hc
    cases answer with
    | ok a => exact hc
    | error e' => exact ht _ _ _ hc (hh e' s')

theorem keeps_forM (hr : ∀ s, R s s) (ht : ∀ s s' s'', R s s' → R s' s'' → R s s'') {ι : Type v}
    {body : ι → Command σ ε PUnit} {l : List ι} (hb : ∀ x ∈ l, Keeps R (body x)) : Keeps R (l.forM body) := by
  induction l with
  | nil => exact keeps_pure hr _
  | cons x l ih =>
    intro s
    refine KeepsAt.bind ht (hb x List.mem_cons_self s) fun _ s' _ => ?_
    exact ih (fun y hy => hb y (List.mem_cons_of_mem _ hy)) s'

theorem Keeps.run {c : Command σ ε α} (h : Keeps R c) {s s' : σ} {answer : Except ε α}
    (hrun : c s = (answer, s')) : R s s' := by
  have := h s
  unfold KeepsAt at this
  rw [hrun] at this
  exact this

theorem Keeps.mono {R' : σ → σ → Prop} {c : Command σ ε α} (h : Keeps R c)
    (hw : ∀ s s', R s s' → R' s s') : Keeps R' c := fun s => hw _ _ (h s)

end Rules

/-! ## 2. What a command answers -/

/-- From the state `s` on, what the command answers meets `Q`; a throw is no answer. -/
def AnswersAt (Q : α → Prop) (c : Command σ ε α) (s : σ) : Prop := ∀ a s', c s = (.ok a, s') → Q a

section Answered

variable {Q : α → Prop} {s : σ}

theorem answersAt_pure {a : α} (h : Q a) : AnswersAt Q (pure a : Command σ ε α) s := by
  intro a' s' e
  cases e
  exact h

theorem answersAt_fail (e : ε) : AnswersAt Q (fail e : Command σ ε α) s := by
  intro a' s' h
  cases h

theorem AnswersAt.bind {c : Command σ ε β} {f : β → Command σ ε α}
    (h : ∀ b s', c s = (.ok b, s') → AnswersAt Q (f b) s') : AnswersAt Q (c >>= f) s := by
  intro a s'' e
  have hrun : andThen c f s = (.ok a, s'') := e
  unfold andThen at hrun
  cases hc : c s with
  | mk answer s' =>
    rw [hc] at hrun
    cases answer with
    | ok b => exact h b s' hc a s'' hrun
    | error e' => cases hrun

theorem answersAt_query_bind {g : σ → β} {f : β → Command σ ε α} (h : AnswersAt Q (f (g s)) s) :
    AnswersAt Q (query g >>= f) s := h

end Answered

/-! ## 3. Commands, one step at a time -/

section Steps

variable {s s' : σ}

theorem query_bind (g : σ → α) (f : α → Command σ ε β) (s : σ) : (query g >>= f) s = f (g s) s := rfl

theorem lift_ok_bind (a : α) (f : α → Command σ ε β) (s : σ) :
    ((lift (.ok a) : Command σ ε α) >>= f) s = f a s := rfl

theorem lift_error_bind (e : ε) (f : α → Command σ ε β) (s : σ) :
    ((lift (.error e) : Command σ ε α) >>= f) s = (.error e, s) := rfl

theorem bind_run {c : Command σ ε α} {a : α} (h : c s = (.ok a, s')) (f : α → Command σ ε β) :
    (c >>= f) s = f a s' := by
  show andThen c f s = f a s'
  unfold andThen
  rw [h]

end Steps

/-! ## 4. Commands that ended well -/

section Answers

variable {c : Command σ ε α} {f : α → Command σ ε β} {s s' : σ} {a : α} {b : β}

theorem bind_ok : (c >>= f) s = (.ok b, s') ↔ ∃ a t, c s = (.ok a, t) ∧ f a t = (.ok b, s') := by
  show andThen c f s = (.ok b, s') ↔ _
  unfold andThen
  cases e : c s with
  | mk answer t =>
    cases answer with
    | ok a =>
      constructor
      · intro h
        exact ⟨a, t, rfl, h⟩
      · rintro ⟨a', t', h, hf⟩
        cases h
        exact hf
    | error e' =>
      constructor
      · intro h
        cases h
      · rintro ⟨_, _, h, _⟩
        cases h

end Answers

end Commands
