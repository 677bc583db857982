/-
  Subject:   Natural numbers as decimal text.

  * **`number_padStart`**: it is read back, whatever the width;
  * `textLt`: the order of texts; **`textLt_of_number`**: digits of one length are in the order of their numbers.
-/
import ClawRouter.Lib.Utf16

namespace Decimal

open Utf16

def digit (n : Nat) : UInt16 := UInt16.ofNat (48 + n)

def decimal (n : Nat) : Text := if n < 10 then [digit n] else decimal (n / 10) ++ [digit (n % 10)]

def padStart (width n : Nat) : Text := List.replicate (width - (decimal n).length) 0x30 ++ decimal n

def number (t : Text) : Nat := t.foldl (fun value u => 10 * value + (u.toNat - 48)) 0

/-! ## 1. Reading back -/

theorem digit_toNat {n : Nat} (h : n < 10) : (digit n).toNat = 48 + n := by
  unfold digit
  rw [UInt16.toNat_ofNat']
  omega

theorem number_concat (t : Text) (u : UInt16) : number (t ++ [u]) = 10 * number t + (u.toNat - 48) := by
  unfold number
  rw [List.foldl_append]
  rfl

theorem number_decimal (n : Nat) : number (decimal n) = n := by
  induction n using decimal.induct with
  | case1 n h =>
    rw [decimal, if_pos h]
    show 10 * 0 + ((digit n).toNat - 48) = n
    rw [digit_toNat h]
    omega
  | case2 n h ih =>
    rw [decimal, if_neg h, number_concat, ih, digit_toNat (by omega)]
    omega

/-- **Zeros in front do not change a number.** -/
theorem number_padStart (width n : Nat) : number (padStart width n) = n := by
  have hzeros : ∀ k (t : Text), number (List.replicate k 0x30 ++ t) = number t := by
    intro k t
    induction k with
    | zero => rfl
    | succ k ih => exact ih
  unfold padStart
  rw [hzeros, number_decimal]

/-! ## 2. Digits and widths -/

theorem decimal_digits (n : Nat) : ∀ u ∈ decimal n, 48 ≤ u.toNat ∧ u.toNat ≤ 57 := by
  induction n using decimal.induct with
  | case1 n h =>
    intro u hu
    rw [decimal, if_pos h, List.mem_singleton] at hu
    rw [hu, digit_toNat h]
    omega
  | case2 n h ih =>
    intro u hu
    rw [decimal, if_neg h, List.mem_append, List.mem_singleton] at hu
    rcases hu with hu | rfl
    · exact ih u hu
    · rw [digit_toNat (by omega)]
      omega

theorem decimal_ne_nil (n : Nat) : decimal n ≠ [] := by
  unfold decimal
  split
  · exact List.cons_ne_nil _ _
  · exact List.append_ne_nil_of_right_ne_nil _ (List.cons_ne_nil _ _)

theorem decimal_length_le {n width : Nat} (hw : 0 < width) (h : n < 10 ^ width) :
    (decimal n).length ≤ width := by
  induction n using decimal.induct generalizing width with
  | case1 n hn =>
    rw [decimal, if_pos hn]
    exact hw
  | case2 n hn ih =>
    obtain ⟨w, rfl⟩ := Nat.exists_eq_succ_of_ne_zero hw.ne'
    rw [Nat.pow_succ] at h
    have hpos : 0 < w := by
      rcases Nat.eq_zero_or_pos w with rfl | hpos
      · simp only [Nat.pow_zero] at h
        omega
      · exact hpos
    have hrest := ih hpos (by omega)
    rw [decimal, if_neg hn, List.length_append, List.length_singleton]
    omega

theorem padStart_length {n width : Nat} (hw : 0 < width) (h : n < 10 ^ width) :
    (padStart width n).length = width := by
  have hle := decimal_length_le hw h
  unfold padStart
  rw [List.length_append, List.length_replicate]
  omega

theorem padStart_digits (width n : Nat) : ∀ u ∈ padStart width n, 48 ≤ u.toNat ∧ u.toNat ≤ 57 := by
  intro u hu
  rcases List.mem_append.mp hu with hu | hu
  · rw [List.eq_of_mem_replicate hu]
    decide
  · exact decimal_digits n u hu

/-! ## 3. The order of texts -/

def textLt (a b : Text) : Bool := decide (a.map (·.toNat) < b.map (·.toNat))

theorem textLt_irrefl (a : Text) : textLt a a = false := decide_eq_false (List.lt_irrefl _)

theorem textLt_asymm {a b : Text} (h : textLt a b = true) : textLt b a = false :=
  decide_eq_false (List.lt_asymm (of_decide_eq_true (p := _ < _) h))

theorem textLt_cons_lt {u v : UInt16} (h : u.toNat < v.toNat) (a b : Text) : textLt (u :: a) (v :: b) = true :=
  decide_eq_true (List.cons_lt_cons_iff.mpr (.inl h))

theorem textLt_cons (u : UInt16) (a b : Text) : textLt (u :: a) (u :: b) = textLt a b := by
  refine decide_eq_decide.mpr ?_
  rw [List.map_cons, List.map_cons, List.cons_lt_cons_iff]
  constructor
  · rintro (h | ⟨-, h⟩)
    · exact absurd h (lt_irrefl _)
    · exact h
  · exact fun h => .inr ⟨rfl, h⟩

theorem textLt_append_left (a : Text) (b c : Text) : textLt (a ++ b) (a ++ c) = textLt b c := by
  induction a with
  | nil => rfl
  | cons u a ih => rw [List.cons_append, List.cons_append, textLt_cons, ih]

theorem textLt_append {a b : Text} (hlength : a.length = b.length) (h : textLt a b = true) (c d : Text) :
    textLt (a ++ c) (b ++ d) = true := by
  induction a generalizing b with
  | nil =>
    cases b with
    | nil => rw [textLt_irrefl] at h; cases h
    | cons v b => cases hlength
  | cons u a ih =>
    cases b with
    | nil => cases hlength
    | cons v b =>
      rcases List.cons_lt_cons_iff.mp (of_decide_eq_true h) with hlt | ⟨heq, hrest⟩
      · exact textLt_cons_lt hlt _ _
      · obtain rfl := UInt16.toNat_inj.mp heq
        rw [List.cons_append, List.cons_append, textLt_cons]
        exact ih (Nat.succ.inj hlength) (decide_eq_true hrest)

theorem number_cons (u : UInt16) (t : Text) : number (u :: t) = (u.toNat - 48) * 10 ^ t.length + number t := by
  induction t using List.reverseRecOn with
  | nil => simp [number]
  | append_singleton t v ih =>
    rw [← List.cons_append, number_concat, number_concat, ih, List.length_append,
      List.length_singleton, Nat.pow_succ]
    rw [Nat.mul_add, Nat.mul_left_comm, Nat.mul_comm 10 (10 ^ t.length), Nat.add_assoc]

theorem number_lt {t : Text} (h : ∀ u ∈ t, 48 ≤ u.toNat ∧ u.toNat ≤ 57) : number t < 10 ^ t.length := by
  induction t with
  | nil => decide
  | cons u t ih =>
    have hu := h u List.mem_cons_self
    have hrest := ih fun v hv => h v (List.mem_cons_of_mem _ hv)
    rw [number_cons, List.length_cons, Nat.pow_succ]
    have hdigit : (u.toNat - 48) * 10 ^ t.length ≤ 9 * 10 ^ t.length := Nat.mul_le_mul_right _ (by omega)
    omega

/-- **Digits of one length are in the order of their numbers.** -/
theorem textLt_of_number {a b : Text} (hlength : a.length = b.length)
    (ha : ∀ u ∈ a, 48 ≤ u.toNat ∧ u.toNat ≤ 57)
    (hb : ∀ u ∈ b, 48 ≤ u.toNat ∧ u.toNat ≤ 57) (h : number a < number b) : textLt a b = true := by
  induction a generalizing b with
  | nil =>
    cases b with
    | nil => exact absurd h (lt_irrefl _)
    | cons v b => cases hlength
  | cons u a ih =>
    cases b with
    | nil => cases hlength
    | cons v b =>
      have hsame : a.length = b.length := Nat.succ.inj hlength
      have hu := ha u List.mem_cons_self
      have hv := hb v List.mem_cons_self
      have harest : ∀ w ∈ a, 48 ≤ w.toNat ∧ w.toNat ≤ 57 := fun w hw => ha w (List.mem_cons_of_mem _ hw)
      have hbrest : ∀ w ∈ b, 48 ≤ w.toNat ∧ w.toNat ≤ 57 := fun w hw => hb w (List.mem_cons_of_mem _ hw)
      rw [number_cons, number_cons, hsame] at h
      rcases Nat.lt_trichotomy u.toNat v.toNat with hlt | heq | hgt
      · exact textLt_cons_lt hlt a b
      · obtain rfl := UInt16.toNat_inj.mp heq
        rw [textLt_cons]
        exact ih hsame harest hbrest (by omega)
      · have hbound := number_lt hbrest
        have hle : (v.toNat - 48 + 1) * 10 ^ b.length ≤ (u.toNat - 48) * 10 ^ b.length :=
          Nat.mul_le_mul_right _ (by omega)
        rw [Nat.succ_mul] at hle
        omega

theorem textLt_padStart {width n m : Nat} (hm : m < 10 ^ width) (h : n < m) :
    textLt (padStart width n) (padStart width m) = true := by
  have hw : 0 < width := by
    rcases Nat.eq_zero_or_pos width with rfl | hw
    · rw [Nat.pow_zero] at hm
      omega
    · exact hw
  refine textLt_of_number ?_ (padStart_digits width n) (padStart_digits width m) ?_
  · rw [padStart_length hw (h.trans hm), padStart_length hw hm]
  · rwa [number_padStart, number_padStart]

theorem padStart_eq {width n : Nat} (hw : 0 < width) (hle : 10 ^ (width - 1) ≤ n) :
    padStart width n = decimal n := by
  have hlength : width ≤ (decimal n).length := by
    have hlt := number_lt (decimal_digits n)
    rw [number_decimal] at hlt
    have hpow := (Nat.pow_lt_pow_iff_right (by decide : 1 < 10)).mp (hle.trans_lt hlt)
    omega
  unfold padStart
  rw [Nat.sub_eq_zero_of_le hlength]
  rfl

end Decimal
