/-
  Subject:   The lines of an event stream do not depend on how its text was cut.

  * `unitStep`, **`readFrom_feed`**: reading a text is reading its units.
-/
import ClawRouter.Inspect.ResponsesUsage
import ClawRouter.Lib.Chunked

namespace ClawRouter.Inspect

open Utf16 Js

/-! ## 1. Lines -/

section Lines

theorem trim_eq_nil (t : Text) : trim t = [] ↔ ∀ u ∈ t, isSpace u = true := by
  unfold trim
  rw [List.reverse_eq_nil_iff, List.dropWhile_eq_nil_iff]
  constructor
  · intro h u hu
    by_contra hno
    have hmem : ∃ v ∈ t.dropWhile isSpace, isSpace v ≠ true := by
      rw [← List.takeWhile_append_dropWhile (p := isSpace) (l := t), List.mem_append] at hu
      rcases hu with hu | hu
      · exact absurd (List.mem_takeWhile_imp hu) hno
      · exact ⟨u, hu, hno⟩
    obtain ⟨v, hv, hspace⟩ := hmem
    exact hspace (h v (List.mem_reverse.mpr hv))
  · intro h u hu
    exact h u ((List.dropWhile_suffix _).subset (List.mem_reverse.mp hu))

theorem trim_append (xs ys : Text) : (trim (xs ++ ys) != []) = (trim xs != [] || trim ys != []) := by
  rw [Bool.eq_iff_iff, Bool.or_eq_true, bne_iff_ne, bne_iff_ne, bne_iff_ne, Ne, Ne, Ne, trim_eq_nil,
    trim_eq_nil,
    trim_eq_nil]
  simp only [List.mem_append, or_imp, forall_and]
  tauto

namespace Lines

/-- The lines, and the text that the document gets. -/
def joined (r : Lines × List Text) : Lines × Text := (r.1, r.2.flatten)

def andThen (r : Lines × Text) (next : Lines → Lines × Text) : Lines × Text :=
  ((next r.1).1, r.2 ++ (next r.1).2)

theorem data_append (l : Lines) (xs ys : Text) : l.data (xs ++ ys) = (l.data xs).data ys := by
  unfold data Literal.push
  simp only [List.foldl_append, trim_append, Bool.or_assoc]

theorem readValue_append (l : Lines) (xs ys : Text) :
    joined (l.readValue (xs ++ ys)) = andThen (joined (l.readValue xs)) fun l => joined (l.readValue ys) := by
  unfold joined andThen readValue
  cases hmode : l.mode with
  | data =>
    rw [data_append]
    simp [data, hmode]
  | event => simp [Literal.push]
  | field | ignored => simp [hmode]

theorem readValue_optionalSpace (l : Lines) (t : Text) :
    (l.readValue t).1.optionalSpace = l.optionalSpace := by
  unfold readValue
  split <;> rfl

theorem readValue_mode (l : Lines) (t : Text) : (l.readValue t).1.mode = l.mode := by
  unfold readValue
  split <;> simp_all [data]

theorem readSpace_of_not {l : Lines} (h : l.optionalSpace = false) (t : Text) :
    l.readSpace t = l.readValue t := by
  cases t with
  | nil => rfl
  | cons u rest =>
    unfold readSpace
    rw [h]
    rfl

theorem readSpace_nil_optionalSpace (l : Lines) : (l.readSpace []).1 = l := by
  unfold readSpace readValue
  dsimp only
  split
  · simp [data, Literal.push, trim]
  · simp [Literal.push]
  · rfl

theorem readSpace_nil_text (l : Lines) : (l.readSpace []).2.flatten = [] := by
  unfold readSpace readValue
  dsimp only
  split <;> rfl

theorem readSpace_append (l : Lines) (xs ys : Text) :
    joined (l.readSpace (xs ++ ys)) = andThen (joined (l.readSpace xs)) fun l => joined (l.readSpace ys) := by
  cases xs with
  | nil =>
    unfold andThen joined
    simp only [readSpace_nil_optionalSpace, readSpace_nil_text, List.nil_append]
  | cons u xs =>
    cases hspace : l.optionalSpace with
    | false =>
      have hnext : ∀ t, (l.readValue t).1.optionalSpace = false := fun t =>
        (readValue_optionalSpace l t).trans hspace
      rw [readSpace_of_not hspace, readSpace_of_not hspace, readValue_append]
      unfold andThen joined
      simp only [readSpace_of_not (hnext _)]
    | true =>
      have hnext : ∀ t, ((({ l with optionalSpace := false } : Lines).readValue t).1).optionalSpace = false :=
        fun t => readValue_optionalSpace _ t
      rw [List.cons_append, readSpace, readSpace, hspace, if_pos rfl, if_pos rfl]
      have hsame : (if u = 0x20 then xs ++ ys else u :: (xs ++ ys)) =
        (if u = 0x20 then xs else u :: xs) ++ ys := by
        split <;> rfl
      rw [hsame, readValue_append]
      unfold andThen joined
      simp only [readSpace_of_not (hnext _)]

theorem readSpace_mode (l : Lines) (t : Text) : (l.readSpace t).1.mode = l.mode := by
  unfold readSpace
  cases t with
  | nil => exact readValue_mode l []
  | cons u rest =>
    dsimp only
    split <;> rw [readValue_mode]

theorem readField_of_ne {l : Lines} (h : l.mode ≠ .field) (t : Text) : l.readField t = (l, [], t) := by
  cases t with
  | nil => rfl
  | cons u rest => rw [readField, if_pos h]

theorem readField_cons {l : Lines} (h : l.mode = .field) (u : UInt16) :
    ∃ (l' : Lines) (texts : List Text), l'.lineNonempty = l.lineNonempty ∧ ∀ rest, l.readField (u :: rest) =
      ((l'.readField rest).1, texts ++ (l'.readField rest).2.1, (l'.readField rest).2.2) := by
  have hleft : ∀ {l' : Lines} {texts : List Text}, l'.mode ≠ .field → l'.lineNonempty = l.lineNonempty →
      (∀ rest, l.readField (u :: rest) = (l', texts, rest)) →
      ∃ (l' : Lines) (texts : List Text), l'.lineNonempty = l.lineNonempty ∧ ∀ rest, l.readField (u :: rest) =
        ((l'.readField rest).1, texts ++ (l'.readField rest).2.1, (l'.readField rest).2.2) := by
    intro l' texts hmode hline hread
    refine ⟨l', texts, hline, fun rest => ?_⟩
    rw [hread, readField_of_ne hmode, List.append_nil]
  have hcons : ∀ rest, l.readField (u :: rest) = if u = 0x3a then
        if l.front = text "data" then
          ((beginData { l with mode := .data, optionalSpace := true }).1,
            (beginData { l with mode := .data, optionalSpace := true }).2, rest)
        else if l.front = text "event" then
          ({ l with mode := .event, optionalSpace := true, eventName := literal "error" false }, [], rest)
        else ({ l with mode := .ignored, optionalSpace := true }, [], rest)
      else if l.front.length < 5 then readField { l with front := l.front ++ [u] } rest
      else ({ l with mode := .ignored }, [], rest) := by
    intro rest
    rw [readField, if_neg (not_not.mpr h)]
  by_cases hcolon : u = 0x3a
  · by_cases hdata : l.front = text "data"
    · refine @hleft (beginData { l with mode := .data, optionalSpace := true }).1
        (beginData { l with mode := .data, optionalSpace := true }).2 ?_ ?_ fun rest => ?_
      · unfold beginData
        split <;> exact Mode.noConfusion
      · unfold beginData
        split <;> rfl
      · rw [hcons, if_pos hcolon, if_pos hdata]
    · by_cases hevent : l.front = text "event"
      · exact @hleft { l with mode := .event, optionalSpace := true, eventName := literal "error" false } []
          Mode.noConfusion rfl fun rest => by rw [hcons, if_pos hcolon, if_neg hdata, if_pos hevent]
      · exact @hleft { l with mode := .ignored, optionalSpace := true } []
          Mode.noConfusion rfl fun rest => by rw [hcons, if_pos hcolon, if_neg hdata, if_neg hevent]
  · by_cases hshort : l.front.length < 5
    · refine ⟨{ l with front := l.front ++ [u] }, [], rfl, fun rest => ?_⟩
      rw [hcons, if_neg hcolon, if_pos hshort, List.nil_append]
    · exact @hleft { l with mode := .ignored } [] Mode.noConfusion rfl fun rest => by
        rw [hcons, if_neg hcolon, if_neg hshort]

theorem readSpace_lineNonempty (l : Lines) (t : Text) : (l.readSpace t).1.lineNonempty = l.lineNonempty := by
  have hvalue : ∀ (l : Lines) (t : Text), (l.readValue t).1.lineNonempty = l.lineNonempty := by
    intro l t
    unfold readValue
    split <;> rfl
  unfold readSpace
  cases t with
  | nil => exact hvalue l []
  | cons u rest =>
    dsimp only
    split <;> rw [hvalue]

theorem line_cons (l : Lines) (u : UInt16) (rest : Text) :
    joined (l.line (u :: rest)) = andThen (joined (l.line [u])) fun l => joined (l.line rest) := by
  have hstarted : ∀ l : Lines, l.lineNonempty = true → ∀ t : Text,
      ({ l with lineNonempty := l.lineNonempty || t != [] } : Lines) = l := by
    intro l hl t
    rw [hl, Bool.true_or, ← hl]
  have hnonempty : ∀ t : Text, (l.lineNonempty || u :: t != []) = true := fun t => Bool.or_true _
  unfold line
  simp only [hnonempty]
  by_cases hmode : l.mode = .field
  · obtain ⟨l', texts, hline, hread⟩ := @readField_cons { l with lineNonempty := true } hmode u
    simp only [hread]
    unfold andThen joined
    simp only [readField, readSpace_nil_optionalSpace, List.append_nil, List.flatten_append,
      readSpace_nil_text,
      hstarted l' hline, List.append_assoc]
  · have hne : ∀ t, ({ l with lineNonempty := true } : Lines).readField t =
      ({ l with lineNonempty := true }, [], t) :=
      readField_of_ne (l := { l with lineNonempty := true }) hmode
    have hkept : (({ l with lineNonempty := true } : Lines).readSpace [u]).1.lineNonempty = true :=
      readSpace_lineNonempty _ _
    have hmode' : (({ l with lineNonempty := true } : Lines).readSpace [u]).1.mode ≠ .field := by
      rw [readSpace_mode]
      exact hmode
    have happend := readSpace_append { l with lineNonempty := true } [u] rest
    unfold andThen joined at happend ⊢
    simp only [hne, List.nil_append, hstarted _ hkept, readField_of_ne hmode']
    exact happend

end Lines

end Lines

/-! ## 2. A unit at a time -/

section Units

def unitOps (ops : List LineOp) : List LineOp :=
  ops.flatMap fun
    | .data t => t.map fun u => .data [u]
    | .boundary b => [.boundary b]

theorem unitOps_append (xs ys : List LineOp) : unitOps (xs ++ ys) = unitOps xs ++ unitOps ys :=
  List.flatMap_append

theorem unitOps_data (texts : List Text) : unitOps (texts.map .data) = texts.flatten.map fun u =>
    .data [u] := by
  unfold unitOps
  rw [List.flatMap_map, List.map_flatten, List.flatMap_def]

namespace Lines

theorem line_nil (l : Lines) : (l.line []).1 = l ∧ (l.line []).2.flatten = [] := by
  unfold line
  simp only [bne_self_eq_false, Bool.or_false, readField, readSpace_nil_optionalSpace, List.nil_append,
    readSpace_nil_text, and_self]

theorem line_append (l : Lines) (xs ys : Text) :
    joined (l.line (xs ++ ys)) = andThen (joined (l.line xs)) fun l => joined (l.line ys) := by
  induction xs generalizing l with
  | nil =>
    unfold andThen joined
    simp only [List.nil_append, line_nil]
  | cons u xs ih =>
    rw [List.cons_append, line_cons, line_cons l u xs]
    simp only [ih]
    unfold andThen
    simp only [List.append_assoc]

theorem line_skipLf (l : Lines) (t : Text) : (l.line t).1.skipLf = l.skipLf := by
  have hbegin : ∀ l : Lines, l.beginData.1.skipLf = l.skipLf := by
    intro l
    unfold beginData
    split <;> rfl
  have hfield : ∀ (t : Text) (l : Lines), (l.readField t).1.skipLf = l.skipLf := by
    intro t
    induction t with
    | nil => exact fun l => rfl
    | cons u rest ih =>
      intro l
      rw [readField]
      repeat' split
      · rfl
      · rename_i heq
        exact (congrArg (fun r => r.1.skipLf) heq).symm.trans (hbegin _)
      · rfl
      · rfl
      · exact ih _
      · rfl
  have hvalue : ∀ (l : Lines) (t : Text), (l.readValue t).1.skipLf = l.skipLf := by
    intro l t
    unfold readValue
    split <;> rfl
  have hspace : ∀ (l : Lines) (t : Text), (l.readSpace t).1.skipLf = l.skipLf := by
    intro l t
    unfold readSpace
    repeat' split
    all_goals exact hvalue _ _
  exact (hspace _ _).trans (hfield _ _)

def unitStep (l : Lines) (u : UInt16) : Lines × List LineOp :=
  if l.skipLf && u == 10 then ({ l with skipLf := false }, [])
  else if !isEnd u then lineOps { l with skipLf := false } [u]
  else
    let (l, ops) := endLine { l with skipLf := false }
    ({ l with skipLf := u == 13 }, ops)

theorem readFrom_units (t : Text) {l : Lines} {segment : Text} (h : l.skipLf = true → segment = []) :
    (l.readFrom segment t).1 = (Chunked.feed unitStep (l.line segment).1 t).1 ∧ unitOps
      (l.readFrom segment t).2 =
        unitOps ((l.line segment).2.map .data) ++ unitOps (Chunked.feed unitStep (l.line segment).1 t).2 := by
  induction t generalizing l segment with
  | nil =>
    rw [readFrom]
    by_cases hs : segment = []
    · rw [if_pos hs, hs, unitOps_data, (line_nil l).2]
      exact ⟨(line_nil l).1.symm, rfl⟩
    · rw [if_neg hs]
      exact ⟨rfl, (List.append_nil _).symm⟩
  | cons u rest ih =>
    have hskipped := line_skipLf l segment
    have hnone : ∀ l : Lines, unitOps ((l.line []).2.map .data) = [] := fun l => by
      rw [unitOps_data, (line_nil l).2]
      rfl
    -- without the mark, the lines are the same
    have hplain : ({ (l.line segment).1 with skipLf := false } : Lines) =
        (({ l with skipLf := false } : Lines).line segment).1 ∧
        unitOps ((l.line segment).2.map .data) =
          unitOps ((({ l with skipLf := false } : Lines).line segment).2.map .data) := by
      cases hl : l.skipLf with
      | true =>
        rw [h hl, (line_nil l).1, (line_nil _).1, hnone, hnone]
        exact ⟨rfl, rfl⟩
      | false =>
        have hsame : ({ l with skipLf := false } : Lines) = l := by rw [← hl]
        have hsame' : ({ (l.line segment).1 with skipLf := false } : Lines) = (l.line segment).1 := by
          rw [← hl, ← hskipped]
        rw [hsame, hsame']
        exact ⟨rfl, rfl⟩
    rw [readFrom, Chunked.feed, unitStep, hskipped]
    by_cases hskip : (l.skipLf && u == 10) = true
    · rw [if_pos hskip, if_pos hskip]
      have hempty := h (Bool.and_eq_true_iff.mp hskip).1
      obtain ⟨hstate, hops⟩ := @ih { l with skipLf := false } [] (fun _ => rfl)
      rw [(line_nil _).1] at hstate hops
      rw [hnone] at hops
      rw [hempty, (line_nil l).1, hnone]
      exact ⟨hstate, hops⟩
    · rw [if_neg hskip, if_neg hskip, hplain.1, hplain.2]
      by_cases hend : (!isEnd u) = true
      · rw [if_pos hend, if_pos hend]
        obtain ⟨hstate, hops⟩ := @ih { l with skipLf := false } (segment ++ [u]) (fun hno => by cases hno)
        have happend := line_append { l with skipLf := false } segment [u]
        unfold joined andThen at happend
        obtain ⟨hnext, htexts⟩ := Prod.mk.inj happend
        refine ⟨hstate.trans (by rw [hnext]; rfl), hops.trans ?_⟩
        unfold lineOps
        rw [hnext, unitOps_data, htexts, List.map_append, ← unitOps_data, ← unitOps_data, List.append_assoc,
          unitOps_append]
      · rw [if_neg hend, if_neg hend]
        obtain ⟨hstate, hops⟩ := @ih { (({ l with skipLf := false } : Lines).line segment).1.endLine.1 with
          skipLf := u == 13 } [] (fun _ => rfl)
        rw [(line_nil _).1] at hstate hops
        rw [hnone] at hops
        unfold lineOps
        refine ⟨hstate, ?_⟩
        rw [unitOps_append, unitOps_append, hops, unitOps_append, List.append_assoc]
        rfl

/-- **Reading a text is reading its units.** -/
theorem readFrom_feed (l : Lines) (t : Text) : (l.readFrom [] t).1 = (Chunked.feed unitStep l t).1 ∧
      unitOps (l.readFrom [] t).2 = unitOps (Chunked.feed unitStep l t).2 := by
  have hunits := @readFrom_units t l [] (fun _ => rfl)
  rw [(line_nil l).1, unitOps_data, (line_nil l).2] at hunits
  exact hunits

theorem readFrom_append (l : Lines) (xs ys : Text) :
    (l.readFrom [] (xs ++ ys)).1 = ((l.readFrom [] xs).1.readFrom [] ys).1 ∧ unitOps
      (l.readFrom [] (xs ++ ys)).2 =
        unitOps (l.readFrom [] xs).2 ++ unitOps ((l.readFrom [] xs).1.readFrom [] ys).2 := by
  obtain ⟨hall, hallOps⟩ := l.readFrom_feed (xs ++ ys)
  obtain ⟨hx, hxOps⟩ := l.readFrom_feed xs
  obtain ⟨hy, hyOps⟩ := (l.readFrom [] xs).1.readFrom_feed ys
  rw [Chunked.feed_append] at hall hallOps
  rw [hx] at hy hyOps
  rw [hx, hy]
  refine ⟨hall, ?_⟩
  rw [hallOps, hxOps, hyOps, unitOps_append]

end Lines

end Units

end ClawRouter.Inspect
