/-
  Subject:   What a document of a Responses answer comes to does not depend on how its text was fed, where
             it is not both malformed and past a limit.

  * **`Stands.standing`**, **`Stands.closing`**: what it comes to is a function of the text.
-/
import ClawRouter.Inspect.ResponsesUsage

namespace ClawRouter.Inspect

open Utf16 Js

/-! ## 1. Tokens of a text -/

namespace Tokenizer

variable (T : Tokenizer)

/-- The texts fed one after the other; an empty one is not fed. -/
def run (s : T.State) : List Text → Option (T.State × List Token)
  | [] => some (s, [])
  | t :: rest =>
    if t = [] then run s rest
    else
      (T.step s (some t)).bind fun r => (run r.1 rest).map fun u => (u.1, r.2 ++ u.2)

/-- The tokens of a document, with those of its end. -/
def complete (texts : List Text) : Option (List Token) :=
  (T.run T.start texts).bind fun r => (T.step r.1 none).map fun u => r.2 ++ u.2

/-- The merged tokens of a text are the same however it is fed, and so are those of a document; a text is
malformed, or not, however it is fed. -/
structure Streams : Prop where
  text : ∀ xs ys : List Text, xs.flatten = ys.flatten →
    (T.run T.start xs).map (fun r => mergeChunks r.2) = (T.run T.start ys).map (fun r => mergeChunks r.2)
  document : ∀ xs ys : List Text, xs.flatten = ys.flatten →
    (T.complete xs).map mergeChunks = (T.complete ys).map mergeChunks

variable {T}

theorem run_append (s : T.State) (xs ys : List Text) :
    T.run s (xs ++ ys) = (T.run s xs).bind fun r => (T.run r.1 ys).map fun u => (u.1, r.2 ++ u.2) := by
  induction xs generalizing s with
  | nil => simp [run]
  | cons t xs ih =>
    rw [List.cons_append, run, run]
    by_cases ht : t = []
    · rw [if_pos ht, if_pos ht, ih]
    · rw [if_neg ht, if_neg ht]
      cases T.step s (some t) with
      | none => rfl
      | some r =>
        simp only [Option.bind_some]
        rw [ih]
        cases T.run r.1 xs with
        | none => rfl
        | some u =>
          simp only [Option.bind_some, Option.map_some]
          cases T.run u.1 ys with
          | none => rfl
          | some v => simp [List.append_assoc]

theorem run_singleton (s : T.State) (t : Text) :
    T.run s [t] = if t = [] then some (s, []) else T.step s (some t) := by
  rw [run]
  split
  · rfl
  · cases T.step s (some t) with
    | none => rfl
    | some r => simp [run]

end Tokenizer

/-! ## 2. A document that was fed -/

section Document

variable {T : Tokenizer} {ids : Identities} {d : MetadataParser T} {feeds : List Text} {t : Text}

def Kept.start : Kept := ⟨.fresh, .fresh⟩

def keptOf (ids : Identities) (tokens : List Token) : Except InspectionFailure Kept :=
  Kept.start.acceptAll ids.inspectIdentity ids.receipt tokens

theorem keptOf_append {xs : List Token} {k : Kept} (h : keptOf ids xs = .ok k) (ys : List Token) :
    keptOf ids (xs ++ ys) = k.acceptAll ids.inspectIdentity ids.receipt ys := by
  unfold keptOf at h ⊢
  rw [Kept.acceptAll_append, h]
  rfl

theorem keptOf_error {xs : List Token} {e : InspectionFailure} (h : keptOf ids xs = .error e)
    (ys : List Token) :
    keptOf ids (xs ++ ys) = .error e := by
  unfold keptOf at h ⊢
  rw [Kept.acceptAll_append, h]
  rfl

theorem keptOf_mergeChunks (tokens : List Token) : keptOf ids (mergeChunks tokens) = keptOf ids tokens :=
  Kept.acceptAll_mergeChunks tokens Kept.start

/-- What a document has come to after the feeds: it is open, a token was refused, or a feed was malformed
before any was. -/
inductive Stands (ids : Identities) : MetadataParser T → List Text → Prop
  | opened {feeds : List Text} {state : T.State} {tokens : List Token} {kept : Kept}
      (hrun : T.run T.start feeds = some (state, tokens)) (hkept : keptOf ids tokens = .ok kept) :
      Stands ids ⟨some state, kept, none⟩ feeds
  | refused {d : MetadataParser T} {feeds front : List Text} {state : T.State} {tokens : List Token}
      {error : InspectionFailure} (hfront : front <+: feeds)
        (hrun : T.run T.start front = some (state, tokens))
      (herror : keptOf ids tokens = .error error) (hclosed : d.consume = none)
      (hfailure : d.failure = some error.failure) : Stands ids d feeds
  | malformed {d : MetadataParser T} {feeds : List Text} (hrun : T.run T.start feeds = none)
      (hclosed : d.consume = none) (hfailure : d.failure = some .invalid) : Stands ids d feeds

theorem fresh_stands : Stands ids (MetadataParser.fresh (T := T)) [] := .opened rfl rfl

theorem feed_cases {state : T.State} {kept : Kept} (input : Option Text) : (T.step state input = none ∧
      (MetadataParser.feed ids ⟨some state, kept, none⟩ state input) =
        MetadataParser.failed ⟨some state, kept, none⟩ .invalid) ∨
    (∃ next tokens error, T.step state input = some (next, tokens) ∧
      kept.acceptAll ids.inspectIdentity ids.receipt tokens = .error error ∧
      (MetadataParser.feed ids ⟨some state, kept, none⟩ state input) =
        MetadataParser.failed ⟨some state, kept, none⟩ error.failure) ∨
    (∃ next tokens kept', T.step state input = some (next, tokens) ∧
      kept.acceptAll ids.inspectIdentity ids.receipt tokens = .ok kept' ∧
      (MetadataParser.feed ids ⟨some state, kept, none⟩ state input) =
        (⟨some next, kept', none⟩ : MetadataParser T)) := by
  unfold MetadataParser.feed
  cases hstep : T.step state input with
  | none => exact .inl ⟨rfl, rfl⟩
  | some r =>
    dsimp only
    rw [Kept.acceptAll_mergeChunks]
    cases haccept : kept.acceptAll ids.inspectIdentity ids.receipt r.2 with
    | error e => exact .inr (.inl ⟨r.1, r.2, e, rfl, haccept, rfl⟩)
    | ok kept' => exact .inr (.inr ⟨r.1, r.2, kept', rfl, haccept, rfl⟩)

theorem push_stands (h : Stands ids d feeds) (t : Text) : Stands ids (d.push ids t) (feeds ++ [t]) := by
  cases h with
  | @opened _ state tokens kept hrun hkept =>
    have hsnoc : T.run T.start (feeds ++ [t]) = (T.run state [t]).map fun u => (u.1, tokens ++ u.2) := by
      rw [Tokenizer.run_append, hrun, Option.bind_some]
    unfold MetadataParser.push
    dsimp only
    by_cases ht : t = []
    · rw [Tokenizer.run_singleton, if_pos ht, Option.map_some, List.append_nil] at hsnoc
      rw [if_pos ht]
      exact .opened hsnoc hkept
    · rw [Tokenizer.run_singleton, if_neg ht] at hsnoc
      rw [if_neg ht]
      rcases @feed_cases T ids state kept (some t) with ⟨hstep, hfeed⟩ | ⟨next, more, error, hstep,
        hall, hfeed⟩ |
          ⟨next, more, kept', hstep, hall, hfeed⟩
      · rw [hstep] at hsnoc
        rw [hfeed]
        exact .malformed hsnoc rfl rfl
      · rw [hstep] at hsnoc
        rw [hfeed]
        exact .refused List.prefix_rfl hsnoc ((keptOf_append hkept more).trans hall) rfl rfl
      · rw [hstep] at hsnoc
        rw [hfeed]
        exact .opened hsnoc ((keptOf_append hkept more).trans hall)
  | refused hfront hrun herror hclosed hfailure =>
    have hpush : d.push ids t = d := by
      unfold MetadataParser.push
      rw [hclosed]
    rw [hpush]
    exact .refused (hfront.trans (List.prefix_append _ _)) hrun herror hclosed hfailure
  | malformed hrun hclosed hfailure =>
    have hpush : d.push ids t = d := by
      unfold MetadataParser.push
      rw [hclosed]
    rw [hpush]
    refine .malformed ?_ hclosed hfailure
    rw [Tokenizer.run_append, hrun]
    rfl

/-- The text is not malformed after a limit: no part of it that tokenizes is past one, if all of it does
not tokenize. -/
def Undisputed (T : Tokenizer) (ids : Identities) (t : Text) : Prop :=
  T.run T.start [t] = none → ∀ front r, front <+: t → T.run T.start [front] = some r →
    keptOf ids r.2 ≠ .error .limit

def standing (T : Tokenizer) (ids : Identities) (t : Text) : Except MetadataFailure Kept :=
  match T.run T.start [t] with
  | none => .error .invalid
  | some r => (keptOf ids r.2).mapError InspectionFailure.failure

def closing (T : Tokenizer) (ids : Identities) (t : Text) : Except MetadataFailure Kept :=
  match standing T ids t with
  | .error failure => .error failure
  | .ok _ =>
    match T.complete [t] with
    | none => .error .invalid
    | some tokens => (keptOf ids tokens).mapError InspectionFailure.failure

theorem keptOf_run (hT : T.Streams) {state : T.State} {tokens : List Token}
    (h : T.run T.start feeds = some (state, tokens)) :
    ∃ r, T.run T.start [feeds.flatten] = some r ∧ keptOf ids r.2 = keptOf ids tokens := by
  have hsame := hT.text feeds [feeds.flatten] (by simp)
  rw [h] at hsame
  cases hrun : T.run T.start [feeds.flatten] with
  | none =>
    rw [hrun] at hsame
    cases hsame
  | some r =>
    rw [hrun] at hsame
    refine ⟨r, rfl, ?_⟩
    rw [← keptOf_mergeChunks, ← keptOf_mergeChunks tokens]
    exact congrArg (keptOf ids) (Option.some.inj hsame).symm

/-- **What a document has come to depends on its text alone.** -/
theorem Stands.standing (hT : T.Streams) (h : Stands ids d feeds) (hu : Undisputed T ids feeds.flatten) :
    match Inspect.standing T ids feeds.flatten with
    | .ok kept => ∃ state, d = ⟨some state, kept, none⟩ ∧ ∃ tokens, T.run T.start feeds = some (state, tokens) ∧
        keptOf ids tokens = .ok kept
    | .error failure => d.consume = none ∧ d.failure = some failure := by
  unfold Inspect.standing
  cases h with
  | @opened _ state tokens kept hrun hkept =>
    obtain ⟨r, hr, hsame⟩ := @keptOf_run T ids feeds hT state tokens hrun
    rw [hr]
    dsimp only
    rw [hsame, hkept]
    exact ⟨state, rfl, tokens, hrun, hkept⟩
  | @refused _ _ front state tokens error hfront hrun herror hclosed hfailure =>
    obtain ⟨r, hr, hsame⟩ := @keptOf_run T ids front hT state tokens hrun
    obtain ⟨rest, rfl⟩ := hfront
    cases hall : T.run T.start [(front ++ rest).flatten] with
    | none =>
      have hlimit := hu hall front.flatten r ⟨rest.flatten, List.flatten_append.symm⟩ hr
      rw [hsame, herror] at hlimit
      cases error with
      | limit => exact absurd rfl hlimit
      | other => exact ⟨hclosed, hfailure⟩
    | some u =>
      dsimp only
      have hsame' := hT.text (front ++ rest) [(front ++ rest).flatten] (by simp)
      rw [hall, Tokenizer.run_append, hrun, Option.bind_some] at hsame'
      cases hmore : T.run state rest with
      | none =>
        rw [hmore] at hsame'
        cases hsame'
      | some v =>
        rw [hmore] at hsame'
        have hmerged : mergeChunks (tokens ++ v.2) = mergeChunks u.2 := Option.some.inj hsame'
        have hu' : keptOf ids u.2 = .error error := by
          rw [← keptOf_mergeChunks, ← hmerged, keptOf_mergeChunks]
          exact keptOf_error herror v.2
        rw [hu']
        exact ⟨hclosed, hfailure⟩
  | malformed hrun hclosed hfailure =>
    have hsame := hT.text feeds [feeds.flatten] (by simp)
    rw [hrun] at hsame
    cases hall : T.run T.start [feeds.flatten] with
    | none => exact ⟨hclosed, hfailure⟩
    | some u =>
      rw [hall] at hsame
      cases hsame

/-- **And so does what it comes to at its end.** -/
theorem Stands.closing (hT : T.Streams) (h : Stands ids d feeds) (hu : Undisputed T ids feeds.flatten) :
    match Inspect.closing T ids feeds.flatten with
    | .ok kept => (d.finish ids).kept = kept ∧ (d.finish ids).failure = none
    | .error failure => (d.finish ids).failure = some failure := by
  have hstanding := h.standing hT hu
  unfold Inspect.closing
  cases hst : Inspect.standing T ids feeds.flatten with
  | error failure =>
    rw [hst] at hstanding
    unfold MetadataParser.finish
    rw [hstanding.1]
    exact hstanding.2
  | ok kept =>
    rw [hst] at hstanding
    obtain ⟨state, rfl, tokens, hrun, hkept⟩ := hstanding
    have hcomplete : T.complete feeds = (T.step state none).map fun u => tokens ++ u.2 := by
      unfold Tokenizer.complete
      rw [hrun, Option.bind_some]
    have hsame := hT.document feeds [feeds.flatten] (by simp)
    unfold MetadataParser.finish
    dsimp only
    rcases @feed_cases T ids state kept none with ⟨hstep, hfeed⟩ | ⟨next, more, error, hstep, hall, hfeed⟩ |
        ⟨next, more, kept', hstep, hall, hfeed⟩
    · rw [hcomplete, hstep] at hsame
      cases hend : T.complete [feeds.flatten] with
      | none =>
        rw [hfeed]
        rfl
      | some u =>
        rw [hend] at hsame
        cases hsame
    all_goals
      rw [hcomplete, hstep] at hsame
      cases hend : T.complete [feeds.flatten] with
      | none =>
        rw [hend] at hsame
        cases hsame
      | some u =>
        rw [hend] at hsame
        have hu' : keptOf ids u = keptOf ids (tokens ++ more) := by
          rw [← keptOf_mergeChunks, ← keptOf_mergeChunks (tokens ++ more)]
          exact congrArg (keptOf ids) (Option.some.inj hsame).symm
        dsimp only
        rw [hu', keptOf_append hkept, hall, hfeed]
        first
          | exact rfl
          | exact ⟨rfl, rfl⟩

end Document

end ClawRouter.Inspect
