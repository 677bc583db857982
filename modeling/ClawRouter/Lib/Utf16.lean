/-
  Subject:   Texts as lists of 16-bit code units, the code points they spell, and their bytes in UTF-8.

  A surrogate pair is one code point; any other unit is one of its own, and a surrogate alone is
  encoded as the replacement character.

  * **`encode_append`**: a text may be encoded in two parts unless the cut divides a pair.
-/
import Mathlib.Data.UInt
import Mathlib.Tactic.Linarith

namespace Utf16

abbrev Text := List UInt16

instance : LawfulBEq Text := inferInstance

/-! ## 1. Code points -/

def isLead (u : UInt16) : Bool := 0xd800 ≤ u.toNat && u.toNat ≤ 0xdbff

def isTrail (u : UInt16) : Bool := 0xdc00 ≤ u.toNat && u.toNat ≤ 0xdfff

/-- A code point, or a unit that is none. -/
inductive Point
  | unit (u : UInt16)
  | pair (lead trail : UInt16) (whole : (isLead lead && isTrail trail) = true)

def points : Text → List Point
  | [] => []
  | [u] => [.unit u]
  | u :: v :: rest =>
    if h : (isLead u && isTrail v) = true then .pair u v h :: points rest
    else .unit u :: points (v :: rest)

/-- A surrogate that stands alone. -/
def isLone : Point → Bool
  | .unit u => isLead u || isTrail u
  | .pair _ _ _ => false

/-- The units of a code point. -/
def spell : Point → Text
  | .unit u => [u]
  | .pair lead trail _ => [lead, trail]

theorem spell_points (t : Text) : (points t).flatMap spell = t := by
  induction t using points.induct with
  | case1 => rfl
  | case2 u => rfl
  | case3 u v rest hpair ih =>
    rw [points, dif_pos hpair, List.flatMap_cons, ih]
    rfl
  | case4 u v rest hpair ih =>
    rw [points, dif_neg hpair, List.flatMap_cons, ih]
    rfl

def Cut (xs ys : Text) : Prop :=
  ∀ u v, xs.getLast? = some u → ys.head? = some v → (isLead u && isTrail v) = false

variable {text xs ys : Text}

theorem Cut.tail {u : UInt16} (h : Cut (u :: xs) ys) : Cut xs ys := by
  intro a b ha hb
  cases xs with
  | nil => cases ha
  | cons x xs => exact h a b (by rw [List.getLast?_cons_cons]; exact ha) hb

theorem points_append (h : Cut xs ys) : points (xs ++ ys) = points xs ++ points ys := by
  induction xs using points.induct with
  | case1 => rfl
  | case2 u =>
    cases ys with
    | nil => rfl
    | cons v ys =>
      have hcut : ¬ (isLead u && isTrail v) = true := by
        rw [h u v rfl rfl]
        exact Bool.false_ne_true
      show points (u :: v :: ys) = .unit u :: points (v :: ys)
      rw [points, dif_neg hcut]
  | case3 u v rest hpair ih =>
    show points (u :: v :: (rest ++ ys)) = points (u :: v :: rest) ++ points ys
    rw [points, points, dif_pos hpair, dif_pos hpair, ih h.tail.tail]
    rfl
  | case4 u v rest hpair ih =>
    show points (u :: v :: (rest ++ ys)) = points (u :: v :: rest) ++ points ys
    have ih : points (v :: (rest ++ ys)) = points (v :: rest) ++ points ys := ih h.tail
    rw [points, points, dif_neg hpair, dif_neg hpair, ih]
    rfl

/-! ## 2. Bytes -/

def byte (n : Nat) : UInt8 := UInt8.ofNat n

def scalar (lead trail : UInt16) : Nat := 0x10000 + (lead.toNat - 0xd800) * 0x400 + (trail.toNat - 0xdc00)

def Point.utf8 : Point → List UInt8
  | .unit u =>
    let n := u.toNat
    if n < 0x80 then [byte n]
    else if n < 0x800 then [byte (0xc0 + n / 64), byte (0x80 + n % 64)]
    else if isLead u || isTrail u then [0xef, 0xbf, 0xbd]
    else [byte (0xe0 + n / 4096), byte (0x80 + n / 64 % 64), byte (0x80 + n % 64)]
  | .pair lead trail _ =>
    let n := scalar lead trail
    [byte (0xf0 + n / 262144), byte (0x80 + n / 4096 % 64), byte (0x80 + n / 64 % 64), byte (0x80 + n % 64)]

def encode (text : Text) : List UInt8 := (points text).flatMap Point.utf8

/-- The bytes written of code points into a buffer: none of a code point that does not fit. -/
def fitting (capacity : Nat) : List Point → List UInt8
  | [] => []
  | p :: rest =>
    if p.utf8.length ≤ capacity then p.utf8 ++ fitting (capacity - p.utf8.length) rest else []

/-- `encodeInto(text, buffer)` for a buffer of `capacity` bytes. -/
def encodeInto (text : Text) (capacity : Nat) : List UInt8 := fitting capacity (points text)

theorem encode_append (h : Cut xs ys) : encode (xs ++ ys) = encode xs ++ encode ys := by
  unfold encode
  rw [points_append h, List.flatMap_append]

theorem fitting_eq {ps : List Point} {capacity : Nat} (h : (ps.flatMap Point.utf8).length ≤ capacity) :
    fitting capacity ps = ps.flatMap Point.utf8 := by
  induction ps generalizing capacity with
  | nil => rfl
  | cons p ps ih =>
    rw [List.flatMap_cons, List.length_append] at h
    rw [fitting, if_pos (by omega), ih (by omega), List.flatMap_cons]

theorem encodeInto_eq {capacity : Nat} (h : (encode text).length ≤ capacity) :
    encodeInto text capacity = encode text := fitting_eq h

theorem utf8_length_le (p : Point) : p.utf8.length ≤ 4 := by
  cases p with
  | unit u =>
    simp only [Point.utf8]
    split
    · simp
    · split
      · simp
      · split <;> simp
  | pair => simp [Point.utf8]

theorem encode_length_le (text : Text) : (encode text).length ≤ 3 * text.length := by
  unfold encode
  induction text using points.induct with
  | case1 => exact Nat.le_refl 0
  | case2 u =>
    simp only [points, List.flatMap_cons, List.flatMap_nil, List.append_nil, Point.utf8]
    split
    · simp
    · split
      · simp
      · split <;> simp
  | case3 u v rest hpair ih =>
    rw [points, dif_pos hpair, List.flatMap_cons, List.length_append]
    have hle := utf8_length_le (.pair u v hpair)
    simp only [List.length_cons]
    omega
  | case4 u v rest hpair ih =>
    rw [points, dif_neg hpair, List.flatMap_cons, List.length_append]
    have hle : (Point.utf8 (.unit u)).length ≤ 3 := by
      simp only [Point.utf8]
      split
      · simp
      · split
        · simp
        · split <;> simp
    simp only [List.length_cons] at ih ⊢
    omega

/-! ## 3. Texts that may be followed by any other -/

/-- The text does not end with the first half of a pair. -/
def Whole (text : Text) : Prop := ∀ u, text.getLast? = some u → isLead u = false

theorem Whole.cut (h : Whole xs) (ys : Text) : Cut xs ys := by
  intro u v hu _
  rw [h u hu, Bool.false_and]

theorem Whole.nil : Whole [] := by
  intro u hu
  cases hu

theorem Whole.append (hx : Whole xs) (hy : Whole ys) : Whole (xs ++ ys) := by
  intro u hu
  cases ys with
  | nil => exact hx u (by rw [List.append_nil] at hu; exact hu)
  | cons y ys => exact hy u (by rw [List.getLast?_append_cons] at hu; exact hu)

theorem Whole.flatten {texts : List Text} (h : ∀ t ∈ texts, Whole t) : Whole texts.flatten := by
  induction texts with
  | nil => exact Whole.nil
  | cons t rest ih =>
    rw [List.flatten_cons]
    exact (h t List.mem_cons_self).append (ih fun t' ht' => h t' (List.mem_cons_of_mem t ht'))

theorem isLead_ascii {u : UInt16} (h : u.toNat < 128) : isLead u = false := by
  unfold isLead
  rw [decide_eq_false (by omega), Bool.false_and]

/-- Units below 128 are one byte each, and no half of a pair. -/
def Ascii (text : Text) : Prop := ∀ u ∈ text, u.toNat < 128

instance (text : Text) : Decidable (Ascii text) := List.decidableBAll (fun u : UInt16 => u.toNat < 128) text

theorem Ascii.append (hx : Ascii xs) (hy : Ascii ys) : Ascii (xs ++ ys) := by
  intro u hu
  rcases List.mem_append.mp hu with h | h
  · exact hx u h
  · exact hy u h

theorem Ascii.whole (h : Ascii text) : Whole text := by
  intro u hu
  exact isLead_ascii (h u (List.mem_of_getLast? hu))

theorem Ascii.encode_length (h : Ascii text) : (encode text).length = text.length := by
  induction text with
  | nil => rfl
  | cons u rest ih =>
    have hu : u.toNat < 128 := h u List.mem_cons_self
    have hrest : Ascii rest := fun v hv => h v (List.mem_cons_of_mem u hv)
    have hone : Ascii [u] := fun v hv => by
      rw [List.mem_singleton.mp hv]
      exact hu
    have hsplit : encode ([u] ++ rest) = encode [u] ++ encode rest := encode_append (hone.whole.cut rest)
    have hbyte : encode [u] = [byte u.toNat] := by
      simp only [encode, points, List.flatMap_cons, List.flatMap_nil, List.append_nil, Point.utf8]
      rw [if_pos hu]
    rw [← List.singleton_append, hsplit, hbyte, List.length_append, List.length_append, ih hrest]
    rfl

theorem encode_flatten {texts : List Text} (h : ∀ t ∈ texts, Whole t) :
    encode texts.flatten = (texts.map encode).flatten := by
  induction texts with
  | nil => rfl
  | cons t rest ih =>
    have hrest := ih fun t' ht' => h t' (List.mem_cons_of_mem t ht')
    rw [List.flatten_cons, List.map_cons, List.flatten_cons, ← hrest]
    exact encode_append ((h t List.mem_cons_self).cut rest.flatten)

/-! ## 4. Pieces -/

/-- The units a piece takes from the front: `size`, one less where the cut would divide a pair. -/
def pieceSize (size : Nat) (text : Text) : Nat :=
  let end_ := min text.length size
  match text[end_ - 1]?, text[end_]? with
  | some last, some next => if isLead last && isTrail next then end_ - 1 else end_
  | _, _ => end_

/-- The front ends at `size` or at the end of the text, and one unit earlier exactly where that would
divide a pair. -/
theorem pieceSize_cases (size : Nat) (text : Text) :
    (∃ last next, text[min text.length size - 1]? = some last ∧ text[min text.length size]? = some next ∧
      (isLead last && isTrail next) = true ∧ pieceSize size text = min text.length size - 1) ∨
    (pieceSize size text = min text.length size ∧ ∀ last next, text[min text.length size - 1]? = some last →
      text[min text.length size]? = some next → (isLead last && isTrail next) = false) := by
  unfold pieceSize
  simp only
  split
  · rename_i last next hlast hnext
    by_cases hpair : (isLead last && isTrail next) = true
    · exact .inl ⟨last, next, hlast, hnext, hpair, if_pos hpair⟩
    · refine .inr ⟨if_neg hpair, fun a b ha hb => ?_⟩
      rw [hlast] at ha
      rw [hnext] at hb
      cases ha
      cases hb
      exact Bool.eq_false_iff.mpr hpair
  · rename_i hmissing
    exact .inr ⟨rfl, fun a b ha hb => (hmissing a b ha hb).elim⟩

theorem pieceSize_le (size : Nat) (text : Text) : pieceSize size text ≤ min text.length size := by
  obtain ⟨_, _, _, _, _, h⟩ | ⟨h, _⟩ := pieceSize_cases size text <;> omega

theorem pieceSize_pos {size : Nat} (hsize : 2 ≤ size) (h : text ≠ []) : 0 < pieceSize size text := by
  have hlen : 0 < text.length := List.length_pos_iff.mpr h
  obtain ⟨_, _, _, hnext, _, h⟩ | ⟨h, _⟩ := pieceSize_cases size text
  · have := (List.getElem?_eq_some_iff.mp hnext).1
    omega
  · omega

theorem not_trail_of_lead {u : UInt16} (h : isLead u = true) : isTrail u = false := by
  unfold isLead at h
  unfold isTrail
  simp only [Bool.and_eq_true, decide_eq_true_eq] at h
  rw [decide_eq_false (by omega), Bool.false_and]

theorem pieceSize_cut (size : Nat) (text : Text) :
    Cut (text.take (pieceSize size text)) (text.drop (pieceSize size text)) := by
  intro u v hu hv
  have hpos : 0 < pieceSize size text := by
    rcases Nat.eq_zero_or_pos (pieceSize size text) with h | h
    · rw [h, List.take_zero] at hu
      cases hu
    · exact h
  have hle := pieceSize_le size text
  have hlast : text[pieceSize size text - 1]? = some u := by
    rw [List.getLast?_take, if_neg (by omega), List.getElem?_eq_getElem (by omega)] at hu
    rw [List.getElem?_eq_getElem (by omega)]
    exact hu
  have hnext : text[pieceSize size text]? = some v := by
    rw [List.head?_drop] at hv
    exact hv
  obtain ⟨last, _, hl, _, hpair, h⟩ | ⟨h, hno⟩ := pieceSize_cases size text
  · -- the unit that stays for the next piece is the lead of a pair, hence no trail
    rw [h, hl] at hnext
    cases hnext
    rw [not_trail_of_lead (Bool.and_eq_true_iff.mp hpair).1, Bool.and_false]
  · rw [h] at hlast hnext
    exact hno u v hlast hnext

theorem drop_pieceSize_lt {size : Nat} (hsize : 2 ≤ size) (h : text ≠ []) :
    (text.drop (pieceSize size text)).length < text.length := by
  have hpos := pieceSize_pos hsize h
  have hlen : 0 < text.length := List.length_pos_iff.mpr h
  rw [List.length_drop]
  omega

/-- A text in pieces of at most `size` units (two at least), no pair divided. -/
def pieces (size : Nat) (hsize : 2 ≤ size) : Text → List Text
  | [] => []
  | u :: rest =>
    let text := u :: rest
    text.take (pieceSize size text) :: pieces size hsize (text.drop (pieceSize size text))
termination_by text => text.length
decreasing_by exact drop_pieceSize_lt hsize (List.cons_ne_nil u rest)

theorem length_le_of_mem_pieces {size : Nat} {hsize : 2 ≤ size} {piece : Text}
    (h : piece ∈ pieces size hsize text) : piece.length ≤ size := by
  induction text using pieces.induct size hsize with
  | case1 =>
    rw [pieces] at h
    cases h
  | case2 u rest text ih =>
    rw [pieces] at h
    rcases List.mem_cons.mp h with rfl | h
    · have hle := pieceSize_le size (u :: rest)
      rw [List.length_take]
      omega
    · exact ih h

theorem flatMap_points_pieces {α : Type} (f : Point → List α) (size : Nat) (hsize : 2 ≤ size) (text : Text) :
    (pieces size hsize text).flatMap (fun piece => (points piece).flatMap f) = (points text).flatMap f := by
  induction text using pieces.induct size hsize with
  | case1 =>
    rw [pieces]
    rfl
  | case2 u rest text ih =>
    rw [pieces, List.flatMap_cons, ih, ← List.flatMap_append, ← points_append (pieceSize_cut size (u :: rest)),
      List.take_append_drop]

end Utf16
