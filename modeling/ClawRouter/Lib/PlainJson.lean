/-
  Subject:   Plain JSON values whose strings are lists of code units, and the text of them.

  An array may hold slots without a value, an object members without one. A number is told by what is
  written of it: at most 25 characters of ASCII.

  * `quoteBody_length_le`: six bytes at most for each unit of a string.
-/
import ClawRouter.Lib.Utf16

namespace PlainJson

open Utf16

/-! ## 1. Strings -/

def isSurrogate (u : UInt16) : Bool := isLead u || isTrail u

def hexUnit (n : Nat) : UInt16 := UInt16.ofNat (if n < 10 then 48 + n else 87 + n)

def unicodeEscape (u : UInt16) : Text :=
  let n := u.toNat
  [0x5c, 0x75, hexUnit (n / 4096 % 16), hexUnit (n / 256 % 16), hexUnit (n / 16 % 16), hexUnit (n % 16)]

/-- The units with an escape of their own, and its letter. -/
def letterEscapes : List (UInt16 × UInt16) :=
  [(0x08, 0x62), (0x09, 0x74), (0x0a, 0x6e), (0x0c, 0x66), (0x0d, 0x72), (0x22, 0x22), (0x5c, 0x5c)]

def quotePoint : Point → Text
  | .unit u =>
    match letterEscapes.find? (·.1 == u) with
    | some (_, letter) => [0x5c, letter]
    | none => if u.toNat < 0x20 || isSurrogate u then unicodeEscape u else [u]
  | .pair lead trail _ => [lead, trail]

def quoteBody (s : Text) : Text := (points s).flatMap quotePoint

def quote (s : Text) : Text := 0x22 :: (quoteBody s ++ [0x22])

theorem hexUnit_ascii {n : Nat} (h : n < 16) : (hexUnit n).toNat < 128 := by
  unfold hexUnit
  have hlt : (if n < 10 then 48 + n else 87 + n) < 128 := by split <;> omega
  rw [UInt16.toNat_ofNat']
  omega

theorem unicodeEscape_ascii (u : UInt16) : Ascii (unicodeEscape u) := by
  intro v hv
  simp only [unicodeEscape, List.mem_cons, List.not_mem_nil, or_false] at hv
  rcases hv with rfl | rfl | rfl | rfl | rfl | rfl
  · decide
  · decide
  all_goals exact hexUnit_ascii (Nat.mod_lt _ (by decide))

theorem letterEscapes_ascii : ∀ e ∈ letterEscapes, e.2.toNat < 128 := by
  have hall : (letterEscapes.all fun e => decide (e.2.toNat < 128)) = true := rfl
  exact fun e he => of_decide_eq_true (List.all_eq_true.mp hall e he)

theorem quotePoint_cases (p : Point) : (Ascii (quotePoint p) ∧ (quotePoint p).length ≤ 6) ∨
      (∃ u, p = .unit u ∧ quotePoint p = [u] ∧ isSurrogate u = false) ∨
      ∃ lead trail h, p = .pair lead trail h ∧ quotePoint p = [lead, trail] := by
  cases p with
  | pair lead trail h => exact .inr (.inr ⟨lead, trail, h, rfl, rfl⟩)
  | unit u =>
    simp only [quotePoint]
    split
    · rename_i found letter hfound
      have hletter : letter.toNat < 128 := letterEscapes_ascii _ (List.mem_of_find?_eq_some hfound)
      refine .inl ⟨fun v hv => ?_, by simp⟩
      rcases List.mem_cons.mp hv with rfl | hv
      · decide
      · rw [List.mem_singleton.mp hv]
        exact hletter
    · split
      · exact .inl ⟨unicodeEscape_ascii u, Nat.le_refl 6⟩
      · rename_i h
        simp only [Bool.or_eq_true, not_or, Bool.not_eq_true] at h
        exact .inr (.inl ⟨u, rfl, rfl, h.2⟩)

theorem quotePoint_whole (p : Point) : Whole (quotePoint p) := by
  obtain ⟨h, _⟩ | ⟨u, _, hq, hu⟩ | ⟨lead, trail, h, _, hq⟩ := quotePoint_cases p
  · exact h.whole
  · intro v hv
    rw [hq] at hv
    cases hv
    exact (Bool.or_eq_false_iff.mp hu).1
  · intro v hv
    rw [hq] at hv
    cases hv
    have htrail := (Bool.and_eq_true_iff.mp h).2
    rcases hl : isLead trail with _ | _
    · exact hl
    · rw [not_trail_of_lead hl] at htrail
      cases htrail

theorem quoteBody_eq_flatten (s : Text) : quoteBody s = ((points s).map quotePoint).flatten := by
  unfold quoteBody
  rw [List.flatMap_def]

theorem quoteBody_whole (s : Text) : Whole (quoteBody s) := by
  rw [quoteBody_eq_flatten]
  refine Whole.flatten fun t ht => ?_
  obtain ⟨p, _, rfl⟩ := List.mem_map.mp ht
  exact quotePoint_whole p

theorem quoteMark_ascii : Ascii [0x22] := by
  intro u hu
  rw [List.mem_singleton.mp hu]
  decide

theorem quote_whole (s : Text) : Whole (quote s) := by
  intro u hu
  unfold quote at hu
  rw [← List.cons_append, List.getLast?_concat] at hu
  cases hu
  rfl

theorem encode_quote (s : Text) : encode (quote s) = 0x22 :: (encode (quoteBody s) ++ [0x22]) := by
  have hopen : encode (quote s) = encode [0x22] ++ encode (quoteBody s ++ [0x22]) :=
    encode_append (quoteMark_ascii.whole.cut _)
  rw [hopen, encode_append ((quoteBody_whole s).cut _)]
  rfl

def unitCount : Point → Nat
  | .unit _ => 1
  | .pair _ _ _ => 2

theorem sum_unitCount (s : Text) : ((points s).map unitCount).sum = s.length := by
  induction s using points.induct with
  | case1 => rfl
  | case2 u => rfl
  | case3 u v rest hpair ih =>
    rw [points, dif_pos hpair, List.map_cons, List.sum_cons, ih, List.length_cons, List.length_cons]
    show 2 + rest.length = _
    omega
  | case4 u v rest hpair ih =>
    rw [points, dif_neg hpair, List.map_cons, List.sum_cons, ih]
    show 1 + (v :: rest).length = _
    simp only [List.length_cons]
    omega

theorem encode_quotePoint_le (p : Point) : (encode (quotePoint p)).length ≤ 6 * unitCount p := by
  obtain ⟨h, hlen⟩ | ⟨u, rfl, hq, _⟩ | ⟨lead, trail, h, rfl, hq⟩ := quotePoint_cases p
  · rw [h.encode_length]
    cases p <;> simp only [unitCount] <;> omega
  · have hle := encode_length_le (quotePoint (.unit u))
    rw [hq] at hle ⊢
    simp only [List.length_singleton, unitCount] at hle ⊢
    omega
  · have hle := encode_length_le (quotePoint (.pair lead trail h))
    rw [hq] at hle ⊢
    simp only [List.length_cons, List.length_nil, unitCount] at hle ⊢
    omega

/-- Six bytes for each unit are enough. -/
theorem quoteBody_length_le (s : Text) : (encode (quoteBody s)).length ≤ 6 * s.length := by
  rw [quoteBody_eq_flatten, encode_flatten, ← sum_unitCount]
  · induction points s with
    | nil => exact Nat.le_refl 0
    | cons p ps ih =>
      simp only [List.map_cons, List.flatten_cons, List.length_append, List.sum_cons]
      have := encode_quotePoint_le p
      omega
  · intro t ht
    obtain ⟨p, _, rfl⟩ := List.mem_map.mp ht
    exact quotePoint_whole p

/-! ## 2. Values -/

/-- The text of a number. -/
structure Number where
  text : Text
  ascii : Ascii text
  short : text.length ≤ 25

/-- A JSON value as `JSON.stringify` takes it; a slot may hold nothing. -/
inductive Value
  | null
  | bool (b : Bool)
  | num (n : Number)
  | str (s : Text)
  | arr (items : List (Option Value))
  | obj (members : List (Text × Option Value))

def nullText : Text := [0x6e, 0x75, 0x6c, 0x6c]
def trueText : Text := [0x74, 0x72, 0x75, 0x65]
def falseText : Text := [0x66, 0x61, 0x6c, 0x73, 0x65]
def comma : UInt16 := 0x2c
def colon : UInt16 := 0x3a

def joined : List Text → Text
  | [] => []
  | t :: rest => t ++ rest.flatMap fun u => comma :: u

mutual

def stringify : Value → Text
  | .null => nullText
  | .bool true => trueText
  | .bool false => falseText
  | .num n => n.text
  | .str s => quote s
  | .arr items => 0x5b :: (joined (itemTexts items) ++ [0x5d])
  | .obj members => 0x7b :: (joined (memberTexts members) ++ [0x7d])

def itemTexts : List (Option Value) → List Text
  | [] => []
  | none :: rest => nullText :: itemTexts rest
  | some item :: rest => stringify item :: itemTexts rest

def memberTexts : List (Text × Option Value) → List Text
  | [] => []
  | (_, none) :: rest => memberTexts rest
  | (key, some item) :: rest => (quote key ++ colon :: stringify item) :: memberTexts rest

end

theorem ascii_singleton {u : UInt16} (h : u.toNat < 128) : Ascii [u] := by
  intro v hv
  rw [List.mem_singleton.mp hv]
  exact h

theorem nullText_ascii : Ascii nullText := by decide

theorem trueText_ascii : Ascii trueText := by decide

theorem falseText_ascii : Ascii falseText := by decide

theorem whole_concat {t : Text} {u : UInt16} (h : u.toNat < 128) : Whole (t ++ [u]) := by
  intro v hv
  rw [List.getLast?_concat] at hv
  cases hv
  exact isLead_ascii h

theorem stringify_whole (value : Value) : Whole (stringify value) := by
  cases value with
  | null => exact nullText_ascii.whole
  | bool b =>
    cases b with
    | true => exact trueText_ascii.whole
    | false => exact falseText_ascii.whole
  | num n => exact n.ascii.whole
  | str s => exact quote_whole s
  | arr items | obj members =>
    rw [stringify, ← List.cons_append]
    exact whole_concat (by decide)

end PlainJson
