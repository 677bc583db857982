/-
  Subject:   The addresses of budget ledgers (src/worker/budget-scope.ts), and when their windows end
             (src/worker/policy-limits.ts).

  An instant is a number of milliseconds since 1970. A week runs from Monday 00:00 UTC to the next, and its key
  names it by the year and the number of its Thursday; the resets are computed from the instant on their own.

  * **`weekly_key_iff`**: two instants have one weekly key exactly if they lie in one week;
  * **`windows_reset`**: and each reset is the first instant with another key.
-/
import ClawRouter.Lib.Calendar
import ClawRouter.Lib.PlainJson
import ClawRouter.Lib.Search
import ClawRouter.Lib.Value

namespace ClawRouter.Budget

open Utf16 PlainJson Decimal Calendar

/-! ## 1. Addresses -/

/-- Where a budget is kept. -/
structure LedgerAddress where
  tenant : Text
  scopeKey : Text
  objectName : Text
  policyId : Text
  windowKey : Text

/-- The fields of a policy that an address is built from. -/
structure ScopedPolicy where
  tenantId : Option Text
  principalScope : Bool

def dayMs : Int := 86400000

def dayOf (instant : Int) : Int := instant / dayMs

/-- The principal of a scope; an empty one counts as none. -/
def scopedPrincipal (policy : ScopedPolicy) (principal : Option Text) : Option Text :=
  if policy.principalScope then principal.filter (· ≠ []) else none

def scopeText (parts : List Text) : Text := stringify (.arr (parts.map fun part => some (.str part)))

def budgetLedgerAddress (policyId : Text) (policy : ScopedPolicy) (principal : Option Text) (instant : Int) :
    LedgerAddress :=
  let tenant := policy.tenantId.getD (Js.text "default")
  let owner := scopedPrincipal policy principal
  let suffix := (owner.map (Js.text ":" ++ ·)).getD []
  let path := (owner.map (Js.text "/" ++ ·)).getD []
  let name := tenant ++ Js.text "/" ++ policyId ++ path
  { tenant
    scopeKey := scopeText (match owner with
      | some principal => [Js.text "principal", tenant, policyId, principal]
      | none => [Js.text "policy", tenant, policyId])
    objectName := tenant ++ Js.text ":" ++ policyId ++ suffix
    policyId := name
    windowKey := name ++ Js.text "/" ++ (isoDate (dayOf instant)).take 7 }

def providerBudgetLedgerAddress (providerId : Text) (instant : Int) : LedgerAddress where
  tenant :=
  Js.text "default"
  scopeKey := scopeText [Js.text "provider", providerId]
  objectName := Js.text "provider:" ++ providerId
  policyId := Js.text "provider/" ++ providerId
  windowKey := Js.text "provider/" ++ providerId ++ Js.text "/" ++ (isoDate (dayOf instant)).take 7

def dailyBudgetLedgerAddress (policyId : Text) (policy : ScopedPolicy) (principal : Option Text)
    (instant : Int) :
    LedgerAddress :=
  let address := budgetLedgerAddress policyId policy principal instant
  { address with windowKey := address.policyId ++ Js.text "/day/" ++ (isoDate (dayOf instant)).take 10 }

def isoWeekday (day : Int) : Int := if weekdayOf day = 0 then 7 else weekdayOf day

def thursdayOf (day : Int) : Int := setDate day (dateOf day + 4 - isoWeekday day)

/-- `Math.ceil(n / 7)`; the quotient of a number of days is never rounded past a whole one. -/
def ceilSeventh (n : Int) : Int := -(-n / 7)

/-- `Date.UTC(year, 0, 1)` as a day: the years 0 to 99 are those from 1900 on. -/
def utcYear (year : Int) : Int := dayFromYear (if 0 ≤ year ∧ year ≤ 99 then 1900 + year else year)

def weekOf (day : Int) : Int := ceilSeventh (thursdayOf day - utcYear (yearOf (thursdayOf day)) + 1)

def yearText (year : Int) : Text := if year < 0 then hyphen :: decimal year.natAbs else decimal year.toNat

/-- `String(week).padStart(2, "0")`: below 0 there are two units without padding. -/
def weekNumber (week : Int) : Text := if week < 0 then yearText week else padStart 2 week.toNat

def weekText (day : Int) : Text :=
  yearText (yearOf (thursdayOf day)) ++ Js.text "-W" ++ weekNumber (weekOf day)

def weeklyBudgetLedgerAddress (policyId : Text) (policy : ScopedPolicy) (principal : Option Text)
    (instant : Int) :
    LedgerAddress :=
  let address := budgetLedgerAddress policyId policy principal instant
  { address with windowKey := address.policyId ++ Js.text "/week/" ++ weekText (dayOf instant) }

/-! ## 2. Resets -/

def nextDailyReset (instant : Int) : Int := parseDate ((isoDate (dayOf instant)).take 10) * dayMs + dayMs

def nextWeeklyReset (instant : Int) : Int :=
  setDate (dayOf instant) (dateOf (dayOf instant) + 8 - isoWeekday (dayOf instant)) * dayMs

/-! ## 3. Weeks -/

/-- Both instants lie in the week that begins with some Monday. -/
def SameWeek (a b : Int) : Prop :=
  ∃ monday, weekdayOf monday = 1 ∧ (monday * dayMs ≤ a ∧ a < (monday + 7) * dayMs) ∧
    (monday * dayMs ≤ b ∧ b < (monday + 7) * dayMs)

def mondayOf (day : Int) : Int := day - (day + 3) % 7

theorem mondayOf_spec (day : Int) :
    weekdayOf (mondayOf day) = 1 ∧ mondayOf day ≤ day ∧ day < mondayOf day + 7 := by
  unfold mondayOf weekdayOf
  omega

variable {a b day instant : Int}

theorem mondayOf_unique {monday : Int} (h : weekdayOf monday = 1) (hle : monday ≤ day)
    (hlt : day < monday + 7) :
    mondayOf day = monday := by
  unfold weekdayOf at h
  unfold mondayOf
  omega

theorem isoWeekday_eq (day : Int) : isoWeekday day = day - mondayOf day + 1 := by
  unfold isoWeekday weekdayOf mondayOf
  split <;> omega

theorem thursdayOf_eq (day : Int) : thursdayOf day = mondayOf day + 3 := by
  have hweekday := isoWeekday_eq day
  have hshift := setDate_shift day (4 - isoWeekday day)
  unfold thursdayOf
  rw [Int.add_sub_assoc, hshift]
  omega

theorem nextWeeklyReset_eq (instant : Int) :
    nextWeeklyReset instant = (mondayOf (dayOf instant) + 7) * dayMs := by
  have hweekday := isoWeekday_eq (dayOf instant)
  have hshift := setDate_shift (dayOf instant) (8 - isoWeekday (dayOf instant))
  unfold nextWeeklyReset
  rw [Int.add_sub_assoc, hshift, hweekday]
  congr 1
  omega

theorem sameWeek_iff (a b : Int) : SameWeek a b ↔ mondayOf (dayOf a) = mondayOf (dayOf b) := by
  constructor
  · rintro ⟨monday, hmonday, ha, hb⟩
    have hday : ∀ instant : Int, monday * 86400000 ≤ instant → instant < (monday + 7) * 86400000 →
        mondayOf (dayOf instant) = monday := by
      intro instant hle hlt
      refine mondayOf_unique hmonday ?_ ?_ <;> unfold dayOf dayMs <;> omega
    rw [hday a ha.1 ha.2, hday b hb.1 hb.2]
  · intro h
    obtain ⟨hmonday, ha⟩ := mondayOf_spec (dayOf a)
    obtain ⟨-, hb⟩ := mondayOf_spec (dayOf b)
    rw [← h] at hb
    refine ⟨mondayOf (dayOf a), hmonday, ?_, ?_⟩ <;> unfold dayOf dayMs at * <;> omega

theorem hyphen_not_decimal (n : Nat) : hyphen ∉ decimal n := by
  intro h
  have hdigit := (decimal_digits n _ h).1
  revert hdigit
  decide

theorem yearText_cancel {s t : Text} (h : yearText a ++ hyphen :: s = yearText b ++ hyphen :: t) :
    a = b ∧ s = t := by
  have hplain : ∀ {m n : Nat}, decimal m ++ hyphen :: s = decimal n ++ hyphen :: t → m = n ∧ s = t := by
    intro m n h
    obtain ⟨hyear, hrest⟩ := Search.append_cons_inj (hyphen_not_decimal m) (hyphen_not_decimal n) h
    have hnumber := congrArg number hyear
    rw [number_decimal, number_decimal] at hnumber
    exact ⟨hnumber, hrest⟩
  have hsigned : ∀ {m n : Nat} {s t : Text}, hyphen :: (decimal m ++ s) ≠ decimal n ++ t := by
    intro m n s t h
    cases hn : decimal n with
    | nil =>
      have hnumber := decimal_ne_nil n
      exact hnumber hn
    | cons u rest =>
      rw [hn] at h
      have hmem : hyphen ∈ decimal n := by
        rw [hn, (List.cons.inj h).1]
        exact List.mem_cons_self
      exact hyphen_not_decimal n hmem
  unfold yearText at h
  split at h
  · split at h
    · obtain ⟨hnumber, hrest⟩ := hplain (List.cons.inj h).2
      exact ⟨by omega, hrest⟩
    · exact absurd h hsigned
  · split at h
    · exact absurd h.symm hsigned
    · obtain ⟨hnumber, hrest⟩ := hplain h
      exact ⟨by omega, hrest⟩

theorem weekNumber_inj (h : weekNumber a = weekNumber b) : a = b := by
  have hsigned : ∀ n : Nat, hyphen ∉ padStart 2 n := by
    intro n hmem
    have hdigit := (padStart_digits 2 n _ hmem).1
    revert hdigit
    decide
  unfold weekNumber yearText at h
  split at h <;> split at h
  · have hnumber := congrArg number (List.cons.inj h).2
    rw [number_decimal, number_decimal] at hnumber
    omega
  · exact absurd (h ▸ List.mem_cons_self) (hsigned _)
  · exact absurd (h ▸ List.mem_cons_self) (hsigned _)
  · have hnumber := congrArg number h
    rw [number_padStart, number_padStart] at hnumber
    omega

theorem weekText_inj (h : weekText a = weekText b) : thursdayOf a = thursdayOf b := by
  have hsplit : ∀ day, weekText day =
      yearText (yearOf (thursdayOf day)) ++ hyphen :: (0x57 :: weekNumber (weekOf day)) := by
    intro day
    unfold weekText
    rw [List.append_assoc]
    rfl
  rw [hsplit, hsplit] at h
  obtain ⟨hyear, hweek⟩ := yearText_cancel h
  have hweek := weekNumber_inj (List.cons.inj hweek).2
  have hmonday := (mondayOf_spec a).1
  have hmonday' := (mondayOf_spec b).1
  have hthursday := thursdayOf_eq a
  have hthursday' := thursdayOf_eq b
  unfold weekdayOf at hmonday hmonday'
  unfold weekOf ceilSeventh at hweek
  rw [← hyear] at hweek
  -- both are Thursdays of the same seven days, counted from one first day
  omega

/-! ## 4. Keys -/

theorem weekly_windowKey (policyId : Text) (policy : ScopedPolicy) (principal : Option Text) (a b : Int) :
    (weeklyBudgetLedgerAddress policyId policy principal a).windowKey =
        (weeklyBudgetLedgerAddress policyId policy principal b).windowKey ↔
          weekText (dayOf a) = weekText (dayOf b) :=
  List.append_right_inj _

theorem daily_windowKey (policyId : Text) (policy : ScopedPolicy) (principal : Option Text) (a b : Int) :
    (dailyBudgetLedgerAddress policyId policy principal a).windowKey =
        (dailyBudgetLedgerAddress policyId policy principal b).windowKey ↔
      (isoDate (dayOf a)).take 10 = (isoDate (dayOf b)).take 10 :=
  List.append_right_inj _

/-- **Two instants have one weekly key exactly if they lie in one week.** -/
theorem weekly_key_iff {policyId : Text} {policy : ScopedPolicy} {principal : Option Text} :
    (weeklyBudgetLedgerAddress policyId policy principal a).windowKey =
        (weeklyBudgetLedgerAddress policyId policy principal b).windowKey ↔ SameWeek a b := by
  rw [weekly_windowKey, sameWeek_iff]
  constructor
  · intro h
    have hthursday := weekText_inj h
    rw [thursdayOf_eq, thursdayOf_eq] at hthursday
    omega
  · intro h
    have hthursday : thursdayOf (dayOf a) = thursdayOf (dayOf b) := by rw [thursdayOf_eq, thursdayOf_eq, h]
    unfold weekText weekOf
    rw [hthursday]

/-- The first century counts its weeks from 1950. -/
example : weekText (dayFromYear 50 + 30) = Js.text "50-W-99132" := by decide +kernel

/-- `next` is the least instant after `instant` with another key. -/
def FirstChange (key : Int → Text) (instant next : Int) : Prop :=
  instant < next ∧ key next ≠ key instant ∧ ∀ between, instant < between → between < next →
    key between = key instant

theorem weekly_reset (policyId : Text) (policy : ScopedPolicy) (principal : Option Text) (instant : Int) :
    FirstChange (fun t => (weeklyBudgetLedgerAddress policyId policy principal t).windowKey) instant
      (nextWeeklyReset instant) := by
  obtain ⟨hmonday, hle, hlt⟩ := mondayOf_spec (dayOf instant)
  rw [nextWeeklyReset_eq]
  have hafter : instant < (mondayOf (dayOf instant) + 7) * dayMs := by
    unfold dayOf dayMs at *
    omega
  refine ⟨hafter, fun e => ?_, fun between hgt hless => ?_⟩
  · rw [weekly_key_iff, sameWeek_iff] at e
    have hday : dayOf ((mondayOf (dayOf instant) + 7) * dayMs) = mondayOf (dayOf instant) + 7 := by
      generalize mondayOf (dayOf instant) = monday
      unfold dayOf dayMs
      omega
    have hnext := mondayOf_spec (dayOf ((mondayOf (dayOf instant) + 7) * dayMs))
    rw [e, hday] at hnext
    omega
  · rw [weekly_key_iff]
    refine ⟨mondayOf (dayOf instant), hmonday, ?_, ?_⟩ <;> unfold dayOf dayMs at * <;> omega

/-! ## 5. Days -/

def InRange (instant : Int) : Prop := 0 ≤ instant ∧ instant < 253402300800000

theorem InRange.fourDigits (h : InRange instant) : FourDigits (dayOf instant) := by
  have hfirst : dayFromYear 0 = -719528 := by decide
  have hlast : dayFromYear 10000 = 2932897 := by decide
  obtain ⟨hle, hlt⟩ := h
  unfold FourDigits dayOf dayMs
  omega

theorem take_isoDate (h : FourDigits day) : (isoDate day).take 10 = isoDate day :=
  List.take_of_length_le (Nat.le_of_eq (isoDate_length h))

theorem nextDailyReset_eq (h : InRange instant) : nextDailyReset instant = (dayOf instant + 1) * dayMs := by
  unfold nextDailyReset
  rw [take_isoDate h.fourDigits, parse_isoDate h.fourDigits]
  unfold dayMs
  omega

theorem isoDate_later {other : Int} (h : FourDigits day) (hlater : dayFromYear 10000 ≤ other) :
    (isoDate other).take 10 ≠ (isoDate day).take 10 := by
  intro e
  have hyear := le_yearOf hlater
  have hsign : ((isoDate other).take 10).head? = some 0x2b := by
    unfold isoDate isoYear
    rw [if_neg (by omega), if_neg (by omega)]
    rfl
  rw [e, take_isoDate h, isoDate_eq h] at hsign
  have hlength : (padStart 4 (yearOf day).toNat).length = 4 := by
    have hless := h.year
    exact padStart_length (by decide) (by omega)
  cases hpad : padStart 4 (yearOf day).toNat with
  | nil =>
    rw [hpad] at hlength
    cases hlength
  | cons u rest =>
    rw [hpad] at hsign
    cases hsign
    have hdigit := padStart_digits 4 (yearOf day).toNat 0x2b (by rw [hpad]; exact List.mem_cons_self)
    revert hdigit
    decide

theorem daily_reset (policyId : Text) (policy : ScopedPolicy) (principal : Option Text)
    (h : InRange instant) :
    FirstChange (fun t => (dailyBudgetLedgerAddress policyId policy principal t).windowKey) instant
      (nextDailyReset instant) := by
  have hday : dayOf ((dayOf instant + 1) * dayMs) = dayOf instant + 1 := by
    generalize dayOf instant = day
    unfold dayOf dayMs
    omega
  rw [nextDailyReset_eq h]
  refine ⟨by unfold dayOf dayMs; omega, fun e => ?_, fun between hgt hless => ?_⟩
  · rw [daily_windowKey, hday] at e
    rcases Int.lt_or_le (dayOf instant + 1) (dayFromYear 10000) with hlt | hle
    · have hnext : FourDigits (dayOf instant + 1) := ⟨by have hfirst := h.fourDigits.1; omega, hlt⟩
      rw [take_isoDate hnext, take_isoDate h.fourDigits] at e
      have hparsed := congrArg parseDate e
      rw [parse_isoDate hnext, parse_isoDate h.fourDigits] at hparsed
      omega
    · exact isoDate_later h.fourDigits hle e
  · rw [daily_windowKey]
    have hsame : dayOf between = dayOf instant := by
      unfold dayOf dayMs at *
      omega
    rw [hsame]

/-- **The weekly window is the week from Monday to Monday, and each window ends when its reset says.** -/
theorem windows_reset (policyId : Text) (policy : ScopedPolicy) (principal : Option Text) {instant : Int}
    (h : InRange instant) : (∀ other, InRange other →
        ((weeklyBudgetLedgerAddress policyId policy principal instant).windowKey =
            (weeklyBudgetLedgerAddress policyId policy principal other).windowKey ↔ SameWeek instant other)) ∧
      FirstChange (fun t => (weeklyBudgetLedgerAddress policyId policy principal t).windowKey) instant
        (nextWeeklyReset instant) ∧
      FirstChange (fun t => (dailyBudgetLedgerAddress policyId policy principal t).windowKey) instant
        (nextDailyReset instant) :=
  ⟨fun _ _ => weekly_key_iff, weekly_reset policyId policy principal instant, daily_reset policyId
    policy principal h⟩

/-- The last instant of 2020 and the first of 2021 lie in one week. -/
theorem new_year_week :
    (weeklyBudgetLedgerAddress (Js.text "team") ⟨none, false⟩ none 1609459199999).windowKey =
    (weeklyBudgetLedgerAddress (Js.text "team") ⟨none, false⟩ none 1609459200000).windowKey :=
  ((windows_reset (Js.text "team") ⟨none, false⟩ none (⟨by decide, by decide⟩ : InRange 1609459199999)).1
    1609459200000 ⟨by decide, by decide⟩).mpr ⟨18624, by decide, ⟨by decide, by decide⟩, by decide, by decide⟩

end ClawRouter.Budget
