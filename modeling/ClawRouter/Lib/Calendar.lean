/-
  Subject:   The dates of `Date` in UTC: days since 1970-01-01 as years, months and days of the month, and
             their text.

  A year is the last one that does not begin after the day, and so is a month in it. Every 400 years the
  calendar begins anew.

  * `setDate`: `setUTCDate` of a day, with any day of the month; **`setDate_shift`**;
  * `isoDate`, `parseDate`: a date as text and back; **`parse_isoDate`**;
  * **`textLt_isoDate`**: the texts of dates are in the order of the days.
-/
import ClawRouter.Lib.Decimal

namespace Calendar

open Utf16 Decimal

/-! ## 1. Years -/

def dayFromYear (y : Int) : Int := 365 * (y - 1970) + (y - 1969) / 4 - (y - 1901) / 100 + (y - 1601) / 400

def isLeap (y : Int) : Bool := y % 4 == 0 && (y % 100 != 0 || y % 400 == 0)

def cycleDays : Int := 146097

/-- How many times 400 years have passed since year 0. -/
def cycleOf (day : Int) : Int := (day - dayFromYear 0) / cycleDays

def yearOf (day : Int) : Int :=
  400 * cycleOf day + (Nat.findGreatest (fun y => dayFromYear y ≤ day - cycleDays * cycleOf day) 399 : Nat)

theorem dayFromYear_succ (y : Int) :
    dayFromYear (y + 1) = dayFromYear y + (if isLeap y then 366 else 365) := by
  have h4 : (y + 1 - 1969) / 4 = (y - 1969) / 4 + (if y % 4 = 0 then 1 else 0) := by
    split <;> omega
  have h100 : (y + 1 - 1901) / 100 = (y - 1901) / 100 + (if y % 100 = 0 then 1 else 0) := by
    split <;> omega
  have h400 : (y + 1 - 1601) / 400 = (y - 1601) / 400 + (if y % 400 = 0 then 1 else 0) := by
    split <;> omega
  have h1 : y % 100 = 0 → y % 4 = 0 := by omega
  have h2 : y % 400 = 0 → y % 100 = 0 := by omega
  have hleap : isLeap y = true ↔ y % 4 = 0 ∧ (y % 100 ≠ 0 ∨ y % 400 = 0) := by
    unfold isLeap
    simp only [Bool.and_eq_true, Bool.or_eq_true, beq_iff_eq, bne_iff_ne]
  unfold dayFromYear
  rw [h4, h100, h400]
  by_cases hyear : y % 400 = 0
  · rw [if_pos (hleap.mpr ⟨h1 (h2 hyear), .inr hyear⟩), if_pos (h1 (h2 hyear)), if_pos (h2 hyear),
      if_pos hyear]
    omega
  · by_cases hcentury : y % 100 = 0
    · have hnot : ¬ isLeap y = true := fun h => (hleap.mp h).2.elim (fun h => h hcentury) hyear
      rw [if_neg hnot, if_pos (h1 hcentury), if_pos hcentury, if_neg hyear]
      omega
    · by_cases hfour : y % 4 = 0
      · rw [if_pos (hleap.mpr ⟨hfour, .inl hcentury⟩), if_pos hfour, if_neg hcentury, if_neg hyear]
        omega
      · have hnot : ¬ isLeap y = true := fun h => hfour (hleap.mp h).1
        rw [if_neg hnot, if_neg hfour, if_neg hcentury, if_neg hyear]
        omega

variable {a b day y : Int}

theorem dayFromYear_mono {z : Int} (h : y ≤ z) : dayFromYear y ≤ dayFromYear z := by
  unfold dayFromYear
  omega

theorem dayFromYear_cycle (y k : Int) : dayFromYear (400 * k + y) = dayFromYear y + cycleDays * k := by
  unfold dayFromYear cycleDays
  omega

theorem cycleOf_spec (day : Int) :
    dayFromYear 0 ≤ day - cycleDays * cycleOf day ∧ day - cycleDays * cycleOf day < dayFromYear 400 := by
  have hlast : dayFromYear 400 = dayFromYear 0 + cycleDays := by decide
  unfold cycleOf
  rw [hlast]
  generalize dayFromYear 0 = first
  unfold cycleDays
  omega

theorem dayFromYear_yearOf (day : Int) : dayFromYear (yearOf day) ≤ day := by
  have hspec := Nat.findGreatest_spec (P := fun y => dayFromYear y ≤ day - cycleDays * cycleOf day)
    (Nat.zero_le 399)
    (cycleOf_spec day).1
  unfold yearOf
  rw [dayFromYear_cycle]
  omega

theorem day_lt_next (day : Int) : day < dayFromYear (yearOf day + 1) := by
  have hlast := (cycleOf_spec day).2
  unfold yearOf
  rw [Int.add_assoc, dayFromYear_cycle]
  generalize hy : Nat.findGreatest (fun y => dayFromYear y ≤ day - cycleDays * cycleOf day) 399 = y
  have hle : y ≤ 399 := hy ▸ Nat.findGreatest_le 399
  rcases Nat.lt_or_ge y 399 with hlt | hge
  · have hafter : ¬ dayFromYear ((y + 1 : Nat) : Int) ≤ day - cycleDays * cycleOf day :=
      Nat.findGreatest_is_greatest (P := fun y => dayFromYear y ≤ day - cycleDays * cycleOf day)
        (hy ▸ Nat.lt_succ_self y) hlt
    push_cast at hafter
    omega
  · have he : y = 399 := Nat.le_antisymm hle hge
    subst he
    show day < dayFromYear 400 + _
    omega

theorem yearOf_lt (hlt : day < dayFromYear y) : yearOf day < y := by
  by_contra hle
  have hmono := dayFromYear_mono (Int.not_lt.mp hle)
  have hyear := dayFromYear_yearOf day
  omega

theorem le_yearOf (hle : dayFromYear y ≤ day) : y ≤ yearOf day := by
  by_contra hlt
  have hmono : dayFromYear (yearOf day + 1) ≤ dayFromYear y := dayFromYear_mono (by omega)
  have hnext := day_lt_next day
  omega

/-! ## 2. Months -/

def dayInYear (day : Int) : Int := day - dayFromYear (yearOf day)

def monthStart (leap : Bool) (month : Nat) : Int :=
  ([0, 31, 59, 90, 120, 151, 181, 212, 243, 273, 304, 334].getD month 365 : Nat) +
    (if leap && 2 ≤ month then 1 else 0)

def monthOf (day : Int) : Nat :=
  Nat.findGreatest (fun m => monthStart (isLeap (yearOf day)) m ≤ dayInYear day) 11

def firstOf (year : Int) (month : Nat) : Int := dayFromYear year + monthStart (isLeap year) month

def dateOf (day : Int) : Int := day - firstOf (yearOf day) (monthOf day) + 1

def weekdayOf (day : Int) : Int := (day + 4) % 7

/-- `setUTCDate(date)`, which may leave the month. -/
def setDate (day date : Int) : Int := firstOf (yearOf day) (monthOf day) + (date - 1)

/-- **A day of the month that is moved moves the day.** -/
theorem setDate_shift (day by_ : Int) : setDate day (dateOf day + by_) = day + by_ := by
  unfold setDate dateOf
  omega

theorem day_eq (day : Int) : firstOf (yearOf day) (monthOf day) + (dateOf day - 1) = day := by
  unfold dateOf
  omega

theorem monthOf_le (day : Int) : monthOf day ≤ 11 := Nat.findGreatest_le 11

theorem dateOf_pos (day : Int) : 1 ≤ dateOf day := by
  have hyear := dayFromYear_yearOf day
  have hzero : monthStart (isLeap (yearOf day)) 0 = 0 := by
    unfold monthStart
    simp
  have hmonth : monthStart (isLeap (yearOf day)) (monthOf day) ≤ dayInYear day :=
    Nat.findGreatest_spec (P := fun m => monthStart (isLeap (yearOf day)) m ≤ dayInYear day) (Nat.zero_le 11)
      (by rw [hzero]; unfold dayInYear; omega)
  unfold dateOf firstOf
  unfold dayInYear at hmonth
  omega

theorem monthStart_succ (leap : Bool) {month : Nat} (h : month < 11) :
    monthStart leap (month + 1) ≤ monthStart leap month + 31 := by
  have hall : ∀ leap, ∀ month < 11, monthStart leap (month + 1) ≤ monthStart leap month + 31 := by decide
  exact hall leap month h

theorem dateOf_le (day : Int) : dateOf day ≤ 31 := by
  have hnext := day_lt_next day
  rw [dayFromYear_succ] at hnext
  have hlast : dayInYear day < monthStart (isLeap (yearOf day)) (monthOf day) + 31 := by
    rcases Nat.lt_or_ge (monthOf day) 11 with hlt | hge
    · have hafter : ¬ monthStart (isLeap (yearOf day)) (monthOf day + 1) ≤ dayInYear day :=
        Nat.findGreatest_is_greatest (P := fun m => monthStart (isLeap (yearOf day)) m ≤ dayInYear day)
          (Nat.lt_succ_self _) hlt
      have hsucc := monthStart_succ (isLeap (yearOf day)) hlt
      omega
    · have hmonth : monthOf day = 11 := Nat.le_antisymm (monthOf_le day) hge
      have hdecember : ∀ leap, monthStart leap 11 = 334 + (if leap then 1 else 0) := by decide
      rw [hmonth, hdecember]
      unfold dayInYear
      cases hleap : isLeap (yearOf day) with
      | false =>
        rw [hleap, if_neg Bool.false_ne_true] at hnext
        rw [if_neg Bool.false_ne_true]
        omega
      | true =>
        rw [hleap, if_pos rfl] at hnext
        rw [if_pos rfl]
        omega
  unfold dateOf firstOf
  unfold dayInYear at hlast
  omega

/-! ## 3. Dates as text -/

def hyphen : UInt16 := 0x2d

/-- The year of an ISO date, with a sign where it has not four digits. -/
def isoYear (y : Int) : Text :=
  if 0 ≤ y ∧ y ≤ 9999 then padStart 4 y.toNat
  else if y < 0 then hyphen :: padStart 6 y.natAbs
  else 0x2b :: padStart 6 y.toNat

def isoDate (day : Int) : Text :=
  isoYear (yearOf day) ++ hyphen :: (padStart 2 (monthOf day + 1) ++ hyphen :: padStart 2 (dateOf day).toNat)

/-- `Date.parse` of a date of ten characters, as a day. -/
def parseDate (t : Text) : Int :=
  firstOf (number (t.take 4)) (number ((t.drop 5).take 2) - 1) + ((number ((t.drop 8).take 2) : Int) - 1)

def FourDigits (day : Int) : Prop := dayFromYear 0 ≤ day ∧ day < dayFromYear 10000

theorem FourDigits.year (h : FourDigits day) : 0 ≤ yearOf day ∧ yearOf day < 10000 :=
  ⟨le_yearOf h.1, yearOf_lt h.2⟩

theorem isoDate_eq (h : FourDigits day) : isoDate day = padStart 4 (yearOf day).toNat ++
      hyphen :: (padStart 2 (monthOf day + 1) ++ hyphen :: padStart 2 (dateOf day).toNat) := by
  obtain ⟨hle, hlt⟩ := h.year
  unfold isoDate isoYear
  rw [if_pos ⟨hle, by omega⟩]

theorem isoDate_length (h : FourDigits day) : (isoDate day).length = 10 := by
  have hyear := h.year
  have hmonth := monthOf_le day
  have hdate := dateOf_le day
  rw [isoDate_eq h, List.length_append, List.length_cons, List.length_append, List.length_cons,
    padStart_length (by decide) (by omega), padStart_length (by decide) (by omega),
    padStart_length (by decide) (by omega)]

/-- **A date is read back.** -/
theorem parse_isoDate (h : FourDigits day) : parseDate (isoDate day) = day := by
  have hyear := h.year
  have hmonth := monthOf_le day
  have hdate := dateOf_le day
  have hpos := dateOf_pos day
  have hy : (padStart 4 (yearOf day).toNat).length = 4 := padStart_length (by decide) (by omega)
  have hm : (padStart 2 (monthOf day + 1)).length = 2 := padStart_length (by decide) (by omega)
  have hd : (padStart 2 (dateOf day).toNat).length = 2 := padStart_length (by decide) (by omega)
  have htake : (isoDate day).take 4 = padStart 4 (yearOf day).toNat := by
    rw [isoDate_eq h, List.take_append_of_le_length (by omega), List.take_of_length_le (by omega)]
  have hdrop : (isoDate day).drop 5 = padStart 2 (monthOf day + 1) ++ hyphen :: padStart 2
    (dateOf day).toNat := by
    rw [isoDate_eq h, List.drop_append, List.drop_of_length_le (by omega), hy]
    rfl
  have hlast : (isoDate day).drop 8 = padStart 2 (dateOf day).toNat := by
    have hsplit : ((isoDate day).drop 5).drop 3 = (isoDate day).drop 8 := by rw [List.drop_drop]
    rw [← hsplit, hdrop, List.drop_append, List.drop_of_length_le (by omega), hm]
    rfl
  unfold parseDate
  rw [htake, hdrop, hlast, List.take_append_of_le_length (by omega), List.take_of_length_le (by omega),
    List.take_of_length_le (by omega), number_padStart, number_padStart, number_padStart, Nat.add_sub_cancel,
    Int.toNat_of_nonneg hyear.1, Int.toNat_of_nonneg (by omega)]
  exact day_eq day

/-! ## 4. The order of dates -/

theorem monthOf_mono (hyear : yearOf a = yearOf b) (h : a ≤ b) : monthOf a ≤ monthOf b := by
  unfold monthOf dayInYear
  rw [hyear]
  refine Nat.findGreatest_mono_left ?_ 11
  intro month hmonth
  exact hmonth.trans (by omega)

theorem yearOf_mono (h : a ≤ b) : yearOf a ≤ yearOf b := le_yearOf ((dayFromYear_yearOf a).trans h)

theorem textLt_isoDate_of_lt (ha : FourDigits a) (hb : FourDigits b) (h : a < b) :
    textLt (isoDate a) (isoDate b) = true := by
  have hya := ha.year
  have hyb := hb.year
  have hma := monthOf_le a
  have hmb := monthOf_le b
  have hda := dateOf_le a
  have hdb := dateOf_le b
  have hpa := dateOf_pos a
  rw [isoDate_eq ha, isoDate_eq hb]
  rcases lt_or_eq_of_le (yearOf_mono h.le) with hyear | hyear
  · refine textLt_append ?_ (textLt_padStart (by omega) (by omega)) _ _
    rw [padStart_length (by decide) (by omega), padStart_length (by decide) (by omega)]
  · rw [hyear, textLt_append_left, textLt_cons]
    rcases lt_or_eq_of_le (monthOf_mono hyear h.le) with hmonth | hmonth
    · refine textLt_append ?_ (textLt_padStart (by omega) (by omega)) _ _
      rw [padStart_length (by decide) (by omega), padStart_length (by decide) (by omega)]
    · rw [hmonth, textLt_append_left, textLt_cons]
      have hdate : dateOf a < dateOf b := by
        unfold dateOf
        rw [hyear, hmonth]
        omega
      exact textLt_padStart (by omega) (by omega)

theorem textLt_isoDate (ha : FourDigits a) (hb : FourDigits b) :
    textLt (isoDate a) (isoDate b) = decide (a < b) := by
  rcases lt_trichotomy a b with h | h | h
  · rw [textLt_isoDate_of_lt ha hb h, decide_eq_true h]
  · rw [h, textLt_irrefl, decide_eq_false (lt_irrefl b)]
  · rw [textLt_asymm (textLt_isoDate_of_lt hb ha h), decide_eq_false (lt_asymm h)]

end Calendar
