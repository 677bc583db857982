/-
  Subject:   Reading back a text that was quoted as JSON, unit by unit.

  `readPoint` reads one code point inside a JSON string, as an escape or as it is.

  * **`readPoint_quotePoint`**: what was written of a code point reads back as it;
  * **`quote_cancel`**: a quoted text ends at its quote, whatever follows.
-/
import ClawRouter.Lib.PlainJson

namespace PlainJson

open Utf16

/-! ## 1. Reading -/

/-- The value of a hexadecimal digit as `hexUnit` writes it. -/
def hexDigitValue (u : UInt16) : Nat := if u.toNat < 58 then u.toNat - 48 else u.toNat - 87

def readEscape : Text → Option (Point × Text)
  | [] => none
  | letter :: rest =>
    if letter = 0x75 then
      match rest with
      | a :: b :: c :: d :: rest =>
        some (.unit (UInt16.ofNat (hexDigitValue a * 4096 + hexDigitValue b * 256 + hexDigitValue c * 16 +
          hexDigitValue d)), rest)
      | _ => none
    else (letterEscapes.find? (·.2 == letter)).map fun e => (.unit e.1, rest)

def readPlain (u : UInt16) : Text → Point × Text
  | [] => (.unit u, [])
  | v :: rest => if h : (isLead u && isTrail v) = true then (.pair u v h, rest) else (.unit u, v :: rest)

/-- One code point inside a JSON string, none at its end. -/
def readPoint : Text → Option (Point × Text)
  | [] => none
  | u :: rest => if u = 0x22 then none else if u = 0x5c then readEscape rest else some (readPlain u rest)

theorem readPoint_plain {u : UInt16} (hmark : u ≠ 0x22) (hslash : u ≠ 0x5c) (rest : Text) :
    readPoint (u :: rest) = some (readPlain u rest) := (if_neg hmark).trans (if_neg hslash)

theorem hexDigitValue_hexUnit {n : Nat} (h : n < 16) : hexDigitValue (hexUnit n) = n := by
  have hall : ∀ n < 16, hexDigitValue (hexUnit n) = n := by decide
  exact hall n h

theorem readPoint_escape (u : UInt16) (rest : Text) :
    readPoint (unicodeEscape u ++ rest) = some (.unit u, rest) := by
  have hlt := u.toNat_lt
  have hvalue : hexDigitValue (hexUnit (u.toNat / 4096 % 16)) * 4096 + hexDigitValue
    (hexUnit (u.toNat / 256 % 16)) * 256 +
      hexDigitValue (hexUnit (u.toNat / 16 % 16)) * 16 + hexDigitValue (hexUnit (u.toNat % 16)) = u.toNat := by
    rw [hexDigitValue_hexUnit (Nat.mod_lt _ (by decide)), hexDigitValue_hexUnit (Nat.mod_lt _ (by decide)),
      hexDigitValue_hexUnit (Nat.mod_lt _ (by decide)), hexDigitValue_hexUnit (Nat.mod_lt _ (by decide))]
    omega
  show some (Point.unit (UInt16.ofNat (hexDigitValue (hexUnit (u.toNat / 4096 % 16)) * 4096 +
    hexDigitValue (hexUnit (u.toNat / 256 % 16)) * 256 + hexDigitValue (hexUnit (u.toNat / 16 % 16)) * 16 +
    hexDigitValue (hexUnit (u.toNat % 16)))), rest) = _
  rw [hvalue, UInt16.ofNat_toNat]

theorem letterEscapes_read : (letterEscapes.all fun e =>
    e.2 != 0x75 && (letterEscapes.find? (·.2 == e.2)) == some e) = true := by decide

theorem letterEscapes_special :
    letterEscapes.find? (·.1 == 0x22) ≠ none ∧ letterEscapes.find? (·.1 == 0x5c) ≠ none := by
  decide

/-- **What was written of a code point reads back as it.** A unit that is a code point of its own
    stands before no
trail. -/
theorem readPoint_quotePoint (p : Point) (rest : Text) :
    readPoint (quotePoint p ++ rest) = some (p, rest) := by
  cases p with
  | pair lead trail h =>
    have hlead := (Bool.and_eq_true_iff.mp h).1
    have hquote : lead ≠ 0x22 := by
      rintro rfl
      revert hlead
      decide
    have hslash : lead ≠ 0x5c := by
      rintro rfl
      revert hlead
      decide
    show readPoint (lead :: trail :: rest) = _
    rw [readPoint_plain hquote hslash, readPlain, dif_pos h]
  | unit u =>
    cases hfind : letterEscapes.find? (·.1 == u) with
    | some e =>
      have hunit : e.1 = u := by
        have hfound := List.find?_some hfind
        exact eq_of_beq hfound
      have hread := List.all_eq_true.mp letterEscapes_read e (List.mem_of_find?_eq_some hfind)
      rw [Bool.and_eq_true, bne_iff_ne, beq_iff_eq] at hread
      have hquote : quotePoint (.unit u) = [0x5c, e.2] := by
        simp only [quotePoint, hfind]
      rw [hquote]
      show (if e.2 = 0x75 then _ else (letterEscapes.find? (·.2 == e.2)).map fun e =>
        (Point.unit e.1, rest)) = _
      rw [if_neg hread.1, hread.2, Option.map_some, hunit]
    | none =>
      by_cases hescape : (decide (u.toNat < 0x20) || isSurrogate u) = true
      · have hquote : quotePoint (.unit u) = unicodeEscape u := by
          simp only [quotePoint, hfind]
          rw [if_pos hescape]
        rw [hquote, readPoint_escape]
      · have hquote : quotePoint (.unit u) = [u] := by
          simp only [quotePoint, hfind]
          rw [if_neg hescape]
        have hmark : u ≠ 0x22 := fun e => letterEscapes_special.1 (e ▸ hfind)
        have hslash : u ≠ 0x5c := fun e => letterEscapes_special.2 (e ▸ hfind)
        have hlead : isLead u = false := by
          rw [Bool.not_eq_true, Bool.or_eq_false_iff] at hescape
          exact (Bool.or_eq_false_iff.mp hescape.2).1
        rw [hquote]
        show readPoint (u :: rest) = _
        rw [readPoint_plain hmark hslash]
        cases rest with
        | nil => rfl
        | cons v rest =>
          rw [readPlain, dif_neg]
          rw [hlead, Bool.false_and]
          exact Bool.false_ne_true

/-! ## 2. Texts -/

theorem points_cancel {ps qs : List Point} {u v : Text}
    (h : ps.flatMap quotePoint ++ 0x22 :: u = qs.flatMap quotePoint ++ 0x22 :: v) : ps = qs ∧ u = v := by
  induction ps generalizing qs with
  | nil =>
    cases qs with
    | nil => exact ⟨rfl, (List.cons.inj h).2⟩
    | cons q qs =>
      have hread := congrArg readPoint h
      rw [List.flatMap_cons, List.append_assoc, readPoint_quotePoint] at hread
      cases hread
  | cons p ps ih =>
    cases qs with
    | nil =>
      have hread := congrArg readPoint h
      rw [List.flatMap_cons, List.append_assoc, readPoint_quotePoint] at hread
      cases hread
    | cons q qs =>
      have hread := congrArg readPoint h
      rw [List.flatMap_cons, List.flatMap_cons, List.append_assoc, List.append_assoc, readPoint_quotePoint,
        readPoint_quotePoint, Option.some.injEq, Prod.mk.injEq] at hread
      obtain ⟨e, e'⟩ := ih hread.2
      exact ⟨by rw [hread.1, e], e'⟩

/-- **A quoted text ends at its quote.** -/
theorem quote_cancel {s t u v : Text} (h : quote s ++ u = quote t ++ v) : s = t ∧ u = v := by
  unfold quote quoteBody at h
  rw [List.cons_append, List.cons_append, List.append_assoc, List.append_assoc] at h
  obtain ⟨hpoints, hrest⟩ := points_cancel (List.cons.inj h).2
  refine ⟨?_, hrest⟩
  rw [← spell_points s, ← spell_points t, hpoints]

/-- What stands between the brackets of an array of strings, after the first. -/
def laterStrings (texts : List Text) : Text := texts.flatMap fun t => comma :: quote t

theorem laterStrings_cancel {s t : List Text} {u v : Text} (hu : u.head? ≠ some comma)
    (hv : v.head? ≠ some comma)
    (h : laterStrings s ++ u = laterStrings t ++ v) : s = t := by
  induction s generalizing t with
  | nil =>
    cases t with
    | nil => rfl
    | cons b t =>
      have hhead := congrArg List.head? h
      exact absurd hhead hu
  | cons a s ih =>
    cases t with
    | nil =>
      have hhead := congrArg List.head? h
      exact absurd hhead.symm hv
    | cons b t =>
      unfold laterStrings at h
      rw [List.flatMap_cons, List.flatMap_cons, List.append_assoc, List.append_assoc] at h
      obtain ⟨e, hrest⟩ := quote_cancel (List.cons.inj h).2
      rw [e, ih hrest]

theorem itemTexts_strings (texts : List Text) :
    itemTexts (texts.map fun t => some (.str t)) = texts.map quote := by
  induction texts with
  | nil => rfl
  | cons t texts ih =>
    rw [List.map_cons, itemTexts, ih, List.map_cons]
    rfl

theorem stringify_strings_inj {a b : Text} {s t : List Text}
    (h : stringify (.arr ((a :: s).map fun t => some (.str t))) = stringify
      (.arr ((b :: t).map fun t => some (.str t)))) :
    a :: s = b :: t := by
  have hjoined : ∀ (a : Text) (s : List Text), joined ((a :: s).map quote) = quote a ++ laterStrings s := by
    intro a s
    unfold laterStrings
    rw [List.map_cons, joined, List.flatMap_map]
  rw [stringify, stringify, itemTexts_strings, itemTexts_strings, hjoined, hjoined, List.append_assoc,
    List.append_assoc] at h
  obtain ⟨e, hrest⟩ := quote_cancel (List.cons.inj h).2
  have hclose : ([0x5d] : Text).head? ≠ some comma := by decide
  rw [e, laterStrings_cancel hclose hclose hrest]

end PlainJson
