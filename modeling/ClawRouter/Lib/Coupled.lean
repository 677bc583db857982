/-
  Subject:   Two commands side by side, where the second may find a fault that the first finds later.

  The states of the two are related as long as the second goes on. Where the second throws, the first
  throws too, or its state is spoiled: whatever comes after, it cannot end well.

  * `coupled_update`, `coupled_fail`: single commands.
-/
import ClawRouter.Lib.Command

namespace Commands

open Command

universe u v

variable {σ τ : Type u} {ε α β : Type v}

/-- From related states: the same answer and related states, or both fail, or the first is spoiled. -/
def Coupled (live : σ → τ → Prop) (spoiled : σ → Prop) (c : Command σ ε α) (d : Command τ ε α) (s : σ)
    (t : τ) : Prop :=
  match d t with
  | (.ok a, t') => ∃ s', c s = (.ok a, s') ∧ live s' t'
  | (.error _, _) => (∃ e s', c s = (.error e, s')) ∨ spoiled (c s).2

def Spoils (spoiled : σ → Prop) (c : Command σ ε α) : Prop := Keeps (fun s s' => spoiled s → spoiled s') c

variable {live : σ → τ → Prop} {spoiled : σ → Prop} {s : σ} {t : τ}

theorem coupled_pure (a : α) (h : live s t) :
    Coupled live spoiled (pure a : Command σ ε α) (pure a) s t := ⟨s, rfl, h⟩

theorem coupled_fail (e : ε) : Coupled live spoiled (fail e : Command σ ε α) (fail e) s t := .inl ⟨e, s, rfl⟩

theorem coupled_update {f : σ → σ} {g : τ → τ} (h : live (f s) (g t)) :
    Coupled live spoiled (update f : Command σ ε PUnit) (update g) s t := ⟨f s, rfl, h⟩

theorem coupled_late {c : Command σ ε α} (e : ε) (h : spoiled (c s).2) :
    Coupled live spoiled c (fail e) s t := .inr h

theorem coupled_query_bind {g : σ → α} {g' : τ → α} {f f' : α → Command _ ε β}
    (h : Coupled live spoiled (f (g s)) (f' (g' t)) s t) :
    Coupled live spoiled (query g >>= f) (query g' >>= f') s t := h

theorem coupled_update_bind {u : σ → σ} {u' : τ → τ} {f f' : PUnit → Command _ ε β}
    (h : Coupled live spoiled (f ⟨⟩) (f' ⟨⟩) (u s) (u' t)) :
    Coupled live spoiled (update u >>= f) (update u' >>= f') s t := h

theorem Coupled.bind {c : Command σ ε α} {d : Command τ ε α} {f : α → Command σ ε β}
    {g : α → Command τ ε β} (hc : Coupled live spoiled c d s t)
    (hf : ∀ a s' t', c s = (.ok a, s') → live s' t' → Coupled live spoiled (f a) (g a) s' t')
    (hk : ∀ a, Spoils spoiled (f a)) : Coupled live spoiled (c >>= f) (d >>= g) s t := by
  unfold Coupled at hc
  cases hd : d t with
  | mk answer t' =>
    rw [hd] at hc
    cases answer with
    | ok a =>
      obtain ⟨s', hs, hlive⟩ := hc
      have h := hf a s' t' hs hlive
      unfold Coupled at h ⊢
      rw [bind_run hs, bind_run hd]
      exact h
    | error e =>
      have hfail : (d >>= g) t = (.error e, t') := by
        show andThen d g t = _
        unfold andThen
        rw [hd]
      unfold Coupled
      rw [hfail]
      rcases hc with ⟨e', s', hs⟩ | hspoiled
      · refine .inl ⟨e', s', ?_⟩
        show andThen c f s = _
        unfold andThen
        rw [hs]
      · cases hs : c s with
        | mk answer' s' =>
          rw [hs] at hspoiled
          cases answer' with
          | ok a =>
            right
            rw [bind_run hs]
            exact hk a s' hspoiled
          | error e' =>
            refine .inl ⟨e', s', ?_⟩
            show andThen c f s = _
            unfold andThen
            rw [hs]

section Spoiled

theorem spoils_pure (a : α) : Spoils spoiled (pure a : Command σ ε α) := fun _ h => h

theorem spoils_fail (e : ε) : Spoils spoiled (fail e : Command σ ε α) := fun _ h => h

theorem spoils_update {f : σ → σ} (h : ∀ s, spoiled s → spoiled (f s)) :
    Spoils spoiled (update f : Command σ ε PUnit) := h

theorem spoils_query_bind {g : σ → α} {f : α → Command σ ε β} (h : ∀ a, Spoils spoiled (f a)) :
    Spoils spoiled (query g >>= f) := fun s hs => h (g s) s hs

theorem Spoils.bind {c : Command σ ε α} {f : α → Command σ ε β} (hc : Spoils spoiled c)
    (hf : ∀ a, Spoils spoiled (f a)) : Spoils spoiled (c >>= f) := fun s =>
  KeepsAt.bind (fun _ _ _ h h' hs => h' (h hs)) (hc s) fun a s' _ => hf a s'

end Spoiled

end Commands
