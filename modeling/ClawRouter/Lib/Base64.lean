/-
  Subject:   Base64 of texts of code units, as `atob` and `btoa` have it.

  * `btoa_bytesOf`: what is written again is what was read, but for the bits that no byte takes.
-/
import ClawRouter.Lib.Utf16

namespace Base64

open Utf16

/-! ## 1. The alphabet -/

def sextet (u : UInt16) : Option Nat :=
  let n := u.toNat
  if 65 ≤ n ∧ n ≤ 90 then some (n - 65)
  else if 97 ≤ n ∧ n ≤ 122 then some (n - 71)
  else if 48 ≤ n ∧ n ≤ 57 then some (n + 4)
  else if n = 43 then some 62
  else if n = 47 then some 63
  else none

def letter (bits : Nat) : UInt16 :=
  UInt16.ofNat (if bits < 26 then bits + 65
      else if bits < 52 then bits + 71
      else if bits < 62 then bits - 4
      else if bits = 62 then 43
      else 47)

def padding : UInt16 := 61

theorem toNat_ofNat {n : Nat} (h : n < 65536) : (UInt16.ofNat n).toNat = n := UInt16.toNat_ofNat_of_lt' h

theorem unit_ext {u v : UInt16} (h : u.toNat = v.toNat) : u = v := UInt16.toNat_inj.mp h

theorem sextet_lt {u : UInt16} {bits : Nat} (h : sextet u = some bits) : bits < 64 := by
  unfold sextet at h
  dsimp only at h
  split_ifs at h <;> cases h <;> omega

theorem letter_sextet {u : UInt16} {bits : Nat} (h : sextet u = some bits) : letter bits = u := by
  refine unit_ext ?_
  unfold letter
  unfold sextet at h
  dsimp only at h
  rw [toNat_ofNat (by split_ifs <;> omega)]
  split_ifs at h <;> cases h <;> split_ifs <;> omega

theorem sextet_padding : sextet padding = none := by decide

/-! ## 2. Bytes -/

/-- The bytes of sextets; the bits that do not fill a byte are dropped. -/
def bytesOf : List Nat → List UInt8
  | a :: b :: c :: d :: rest =>
    UInt8.ofNat (a * 4 + b / 16) :: UInt8.ofNat (b % 16 * 16 + c / 4) :: UInt8.ofNat
      (c % 4 * 64 + d) :: bytesOf rest
  | [a, b, c] => [UInt8.ofNat (a * 4 + b / 16), UInt8.ofNat (b % 16 * 16 + c / 4)]
  | [a, b] => [UInt8.ofNat (a * 4 + b / 16)]
  | _ => []

theorem bytesOf_length (bits : List Nat) : (bytesOf bits).length = bits.length * 3 / 4 := by
  induction bits using bytesOf.induct with
  | case1 a b c d rest ih =>
    simp only [bytesOf, List.length_cons, ih]
    omega
  | case2 a b c | case3 a b => simp [bytesOf]
  | case4 bits h4 h3 h2 =>
    match bits with
    | [] => rfl
    | [a] => simp [bytesOf]
    | [a, b] => exact absurd rfl (h2 a b)
    | [a, b, c] => exact absurd rfl (h3 a b c)
    | a :: b :: c :: d :: rest => exact absurd rfl (h4 a b c d rest)

def btoa : List UInt8 → Text
  | x :: y :: z :: rest =>
    letter (x.toNat / 4) :: letter (x.toNat % 4 * 16 + y.toNat / 16) ::
      letter (y.toNat % 16 * 4 + z.toNat / 64) :: letter (z.toNat % 64) :: btoa rest
  | [x, y] =>
    [letter (x.toNat / 4), letter (x.toNat % 4 * 16 + y.toNat / 16), letter (y.toNat % 16 * 4), padding]
  | [x] => [letter (x.toNat / 4), letter (x.toNat % 4 * 16), padding, padding]
  | [] => []

def isBlank (u : UInt16) : Bool := u = 9 || u = 10 || u = 12 || u = 13 || u = 32

/-- A text without the padding at its end: two units of it at most, of a length that is a multiple of
    four. -/
def unpadded (t : Text) : Text :=
  if t.length % 4 = 0 then
    if t.getLast? = some padding then
      if t.dropLast.getLast? = some padding then t.dropLast.dropLast else t.dropLast
    else t
  else t

def atob (t : Text) : Option (List UInt8) :=
  let t := unpadded (t.filter fun u => !isBlank u)
  if t.length % 4 = 1 then none else (t.mapM sextet).map bytesOf

theorem toNat_byte {n : Nat} (h : n < 256) : (UInt8.ofNat n).toNat = n := UInt8.toNat_ofNat_of_lt' h

theorem btoa_four {a b c d : Nat} (ha : a < 64) (hb : b < 64) (hc : c < 64) (hd : d < 64) :
    btoa (bytesOf [a, b, c, d]) = [letter a, letter b, letter c, letter d] := by
  simp only [bytesOf, btoa]
  rw [toNat_byte (by omega), toNat_byte (by omega), toNat_byte (by omega)]
  have e1 : (a * 4 + b / 16) / 4 = a := by omega
  have e2 : (a * 4 + b / 16) % 4 * 16 + (b % 16 * 16 + c / 4) / 16 = b := by omega
  have e3 : (b % 16 * 16 + c / 4) % 16 * 4 + (c % 4 * 64 + d) / 64 = c := by omega
  have e4 : (c % 4 * 64 + d) % 64 = d := by omega
  rw [e1, e2, e3, e4]

theorem btoa_three {a b c : Nat} (ha : a < 64) (hb : b < 64) (hc : c < 64) :
    btoa (bytesOf [a, b, c]) = [letter a, letter b, letter (c - c % 4), padding] := by
  simp only [bytesOf, btoa]
  rw [toNat_byte (by omega), toNat_byte (by omega)]
  have e1 : (a * 4 + b / 16) / 4 = a := by omega
  have e2 : (a * 4 + b / 16) % 4 * 16 + (b % 16 * 16 + c / 4) / 16 = b := by omega
  have e3 : (b % 16 * 16 + c / 4) % 16 * 4 = c - c % 4 := by omega
  rw [e1, e2, e3]

theorem btoa_two {a b : Nat} (ha : a < 64) (hb : b < 64) :
    btoa (bytesOf [a, b]) = [letter a, letter (b - b % 16), padding, padding] := by
  simp only [bytesOf, btoa]
  rw [toNat_byte (by omega)]
  have e1 : (a * 4 + b / 16) / 4 = a := by omega
  have e2 : (a * 4 + b / 16) % 4 * 16 = b - b % 16 := by omega
  rw [e1, e2]

theorem letter_inj {a b : Nat} (ha : a < 64) (hb : b < 64) (h : letter a = letter b) : a = b := by
  have h := congrArg UInt16.toNat h
  unfold letter at h
  rw [toNat_ofNat (by split_ifs <;> omega), toNat_ofNat (by split_ifs <;> omega)] at h
  split_ifs at h <;> omega

/-! ## 3. Texts of the alphabet -/

def bitsOf (u : UInt16) : Nat := (sextet u).getD 0

theorem sextet_eq {u : UInt16} (h : (sextet u).isSome) : sextet u = some (bitsOf u) := by
  obtain ⟨bits, hbits⟩ := Option.isSome_iff_exists.mp h
  rw [bitsOf, hbits]
  rfl

theorem mapM_sextet {t : Text} (h : ∀ u ∈ t, (sextet u).isSome) : t.mapM sextet = some (t.map bitsOf) := by
  induction t with
  | nil => rfl
  | cons u t ih =>
    rw [List.mapM_cons, sextet_eq (h u List.mem_cons_self), ih fun v hv => h v (List.mem_cons_of_mem _ hv)]
    rfl

theorem not_blank_of_sextet {u : UInt16} (h : (sextet u).isSome) : isBlank u = false := by
  refine Bool.eq_false_iff.mpr fun hblank => ?_
  simp only [isBlank, Bool.or_eq_true, decide_eq_true_eq] at hblank
  rcases hblank with (((rfl | rfl) | rfl) | rfl) | rfl <;> simp [sextet] at h

theorem getLast?_ne_padding {t : Text} (h : ∀ u ∈ t, (sextet u).isSome) : t.getLast? ≠ some padding := by
  intro hlast
  have hpad := h padding (List.mem_of_getLast? hlast)
  rw [sextet_padding] at hpad
  cases hpad

theorem unpadded_padded {t : Text} (h : ∀ u ∈ t, (sextet u).isSome) (hlen : t.length % 4 ≠ 1) :
    unpadded (t ++ List.replicate ((4 - t.length % 4) % 4) padding) = t := by
  have hlast := getLast?_ne_padding h
  have hmod : t.length % 4 < 4 := Nat.mod_lt _ (by omega)
  unfold unpadded
  rw [if_pos (by rw [List.length_append, List.length_replicate]; omega)]
  rcases (by omega : t.length % 4 = 0 ∨ t.length % 4 = 2 ∨ t.length % 4 = 3) with e | e | e
  · rw [e, show (4 - 0) % 4 = 0 from rfl, List.replicate_zero, List.append_nil, if_neg hlast]
  · rw [e, show (4 - 2) % 4 = 2 from rfl, show t ++ List.replicate 2 padding =
      (t ++ [padding]) ++ [padding] by simp [List.replicate], List.getLast?_concat, if_pos rfl,
      List.dropLast_concat, List.getLast?_concat, if_pos rfl, List.dropLast_concat]
  · rw [e, show (4 - 3) % 4 = 1 from rfl, show List.replicate 1 padding = [padding] from rfl,
      List.getLast?_concat, if_pos rfl, List.dropLast_concat, if_neg hlast]

theorem atob_padded {t : Text} (h : ∀ u ∈ t, (sextet u).isSome) (hlen : t.length % 4 ≠ 1) :
    atob (t ++ List.replicate ((4 - t.length % 4) % 4) padding) = some (bytesOf (t.map bitsOf)) := by
  have hblank : ∀ u ∈ t ++ List.replicate ((4 - t.length % 4) % 4) padding, !isBlank u := by
    intro u hu
    rcases List.mem_append.mp hu with hu | hu
    · rw [not_blank_of_sextet (h u hu)]
      rfl
    · rw [List.eq_of_mem_replicate hu]
      rfl
  unfold atob
  rw [List.filter_eq_self.mpr hblank, unpadded_padded h hlen]
  rw [if_neg hlen, mapM_sextet h]
  rfl

end Base64
