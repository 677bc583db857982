/-
  Subject:   Texts compared by their bytes in UTF-8, as `memcmp` and a loop over encoded bytes do.

  * **`compareBytes_neg`**: byte order is the order of the characters.
-/
import Mathlib.Data.String.Basic

namespace Utf8

def bytes (s : String) : List UInt8 := s.toList.flatMap String.utf8EncodeChar

/-- The first difference, or that of the lengths. -/
def compareBytes : List UInt8 → List UInt8 → Int
  | [], ys => -ys.length
  | xs, [] => xs.length
  | x :: xs, y :: ys => if x = y then compareBytes xs ys else (x.toNat : Int) - y.toNat

section Lists

theorem compareBytes_cons_self (x : UInt8) (xs ys : List UInt8) :
    compareBytes (x :: xs) (x :: ys) = compareBytes xs ys := by
  rw [compareBytes, if_pos rfl]

theorem compareBytes_append_self (l xs ys : List UInt8) :
    compareBytes (l ++ xs) (l ++ ys) = compareBytes xs ys := by
  induction l with
  | nil => rfl
  | cons x l ih => exact (compareBytes_cons_self x _ _).trans ih

theorem compareBytes_self (xs : List UInt8) : compareBytes xs xs = 0 := by
  induction xs with
  | nil => rfl
  | cons x xs ih => exact (compareBytes_cons_self x xs xs).trans ih

theorem compareBytes_swap (xs ys : List UInt8) : compareBytes ys xs = -compareBytes xs ys := by
  induction xs generalizing ys with
  | nil =>
    cases ys with
    | nil => rfl
    | cons y ys => exact (Int.neg_neg _).symm
  | cons x xs ih =>
    cases ys with
    | nil => rfl
    | cons y ys =>
      unfold compareBytes
      by_cases h : x = y
      · rw [if_pos h, if_pos h.symm, ih]
      · rw [if_neg h, if_neg (Ne.symm h)]
        omega

theorem compareBytes_of_lt {x y : UInt8} (h : x.toNat < y.toNat) (xs ys : List UInt8) :
    compareBytes (x :: xs) (y :: ys) < 0 := by
  have hne : x ≠ y := by
    rintro rfl
    omega
  rw [compareBytes, if_neg hne]
  omega

end Lists

section Characters

theorem toNat_byte {n : Nat} (h : n < 256) : (UInt8.ofNat n).toNat = n := by
  rw [UInt8.toNat_ofNat']
  exact Nat.mod_eq_of_lt h

theorem compareBytes_ofNat_of_lt {m n : Nat} (h : m < n) (hn : n < 256) (xs ys : List UInt8) :
    compareBytes (UInt8.ofNat m :: xs) (UInt8.ofNat n :: ys) < 0 := by
  refine compareBytes_of_lt ?_ xs ys
  rw [toNat_byte hn, toNat_byte (by omega)]
  exact h

theorem compareBytes_ofNat {m n : Nat} (hle : m ≤ n) (hn : n < 256) {xs ys : List UInt8}
    (h : m = n → compareBytes xs ys < 0) : compareBytes (UInt8.ofNat m :: xs) (UInt8.ofNat n :: ys) < 0 := by
  by_cases e : m = n
  · rw [e, compareBytes_cons_self]
    exact h e
  · exact compareBytes_ofNat_of_lt (by omega) hn xs ys

theorem toNat_lt (c : Char) : c.val.toNat < 1114112 := by
  have h := c.valid
  omega

theorem compareBytes_char {c d : Char} (h : c.val.toNat < d.val.toNat) (xs ys : List UInt8) :
    compareBytes (String.utf8EncodeChar c ++ xs) (String.utf8EncodeChar d ++ ys) < 0 := by
  have hd := toNat_lt d
  unfold String.utf8EncodeChar
  generalize c.val.toNat = m at h ⊢
  generalize d.val.toNat = n at h hd ⊢
  by_cases hn1 : n ≤ 0x7f
  · rw [if_pos (by omega), if_pos hn1]
    exact compareBytes_ofNat_of_lt h (by omega) _ _
  rw [if_neg hn1]
  by_cases hn2 : n ≤ 0x7ff
  · rw [if_pos hn2]
    by_cases hm1 : m ≤ 0x7f
    · rw [if_pos hm1]
      exact compareBytes_ofNat_of_lt (by omega) (by omega) _ _
    · rw [if_neg hm1, if_pos (by omega)]
      refine compareBytes_ofNat (by omega) (by omega) fun e => ?_
      exact compareBytes_ofNat_of_lt (by omega) (by omega) _ _
  rw [if_neg hn2]
  by_cases hn3 : n ≤ 0xffff
  · rw [if_pos hn3]
    by_cases hm1 : m ≤ 0x7f
    · rw [if_pos hm1]
      exact compareBytes_ofNat_of_lt (by omega) (by omega) _ _
    rw [if_neg hm1]
    by_cases hm2 : m ≤ 0x7ff
    · rw [if_pos hm2]
      exact compareBytes_ofNat_of_lt (by omega) (by omega) _ _
    · rw [if_neg hm2, if_pos (by omega)]
      refine compareBytes_ofNat (by omega) (by omega) fun e => ?_
      refine compareBytes_ofNat (by omega) (by omega) fun e' => ?_
      exact compareBytes_ofNat_of_lt (by omega) (by omega) _ _
  rw [if_neg hn3]
  by_cases hm1 : m ≤ 0x7f
  · rw [if_pos hm1]
    exact compareBytes_ofNat_of_lt (by omega) (by omega) _ _
  rw [if_neg hm1]
  by_cases hm2 : m ≤ 0x7ff
  · rw [if_pos hm2]
    exact compareBytes_ofNat_of_lt (by omega) (by omega) _ _
  rw [if_neg hm2]
  by_cases hm3 : m ≤ 0xffff
  · rw [if_pos hm3]
    exact compareBytes_ofNat_of_lt (by omega) (by omega) _ _
  · rw [if_neg hm3]
    refine compareBytes_ofNat (by omega) (by omega) fun e => ?_
    refine compareBytes_ofNat (by omega) (by omega) fun e' => ?_
    refine compareBytes_ofNat (by omega) (by omega) fun e'' => ?_
    exact compareBytes_ofNat_of_lt (by omega) (by omega) _ _

end Characters

section Texts

theorem encodeChar_ne_nil (c : Char) : String.utf8EncodeChar c ≠ [] := by
  intro h
  have hlength := congrArg List.length h
  rw [String.length_utf8EncodeChar] at hlength
  have := c.utf8Size_pos
  rw [List.length_nil] at hlength
  omega

theorem compareBytes_nil_neg {ys : List UInt8} (h : ys ≠ []) : compareBytes [] ys < 0 := by
  have := List.length_pos_iff.mpr h
  rw [compareBytes]
  omega

theorem compareBytes_of_list_lt {a b : List Char} (h : a < b) :
    compareBytes (a.flatMap String.utf8EncodeChar) (b.flatMap String.utf8EncodeChar) < 0 := by
  induction a generalizing b with
  | nil =>
    cases b with
    | nil => cases h
    | cons d b =>
      refine compareBytes_nil_neg ?_
      rw [List.flatMap_cons]
      exact List.append_ne_nil_of_left_ne_nil (encodeChar_ne_nil d) _
  | cons c a ih =>
    cases b with
    | nil => cases h
    | cons d b =>
      rw [List.flatMap_cons, List.flatMap_cons]
      rcases List.cons_lt_cons_iff.mp h with hchar | ⟨e, hrest⟩
      · exact compareBytes_char hchar _ _
      · rw [e, compareBytes_append_self]
        exact ih hrest

theorem compareBytes_of_lt_text {a b : String} (h : a < b) : compareBytes (bytes a) (bytes b) < 0 :=
  compareBytes_of_list_lt (String.lt_iff_toList_lt.mp h)

/-- **Byte order is the order of the characters.** -/
theorem compareBytes_neg {a b : String} : compareBytes (bytes a) (bytes b) < 0 ↔ a < b := by
  refine ⟨fun h => ?_, compareBytes_of_lt_text⟩
  rcases lt_trichotomy a b with h' | h' | h'
  · exact h'
  · rw [h', compareBytes_self] at h
    omega
  · have h'' := compareBytes_of_lt_text h'
    rw [compareBytes_swap] at h''
    omega

theorem compareBytes_eq_zero {a b : String} : compareBytes (bytes a) (bytes b) = 0 ↔ a = b := by
  constructor
  · intro h
    rcases lt_trichotomy a b with h' | h' | h'
    · have := compareBytes_neg.mpr h'
      omega
    · exact h'
    · have := compareBytes_neg.mpr h'
      rw [compareBytes_swap] at this
      omega
  · rintro rfl
    exact compareBytes_self _

theorem compareBytes_nonpos {a b : String} : compareBytes (bytes a) (bytes b) ≤ 0 ↔ a ≤ b := by
  constructor
  · intro h
    by_contra hlt
    have := compareBytes_neg.mpr (not_le.mp hlt)
    rw [compareBytes_swap] at this
    omega
  · intro h
    rcases h.lt_or_eq with h | h
    · have := compareBytes_neg.mpr h
      omega
    · rw [h, compareBytes_self]

end Texts

end Utf8
