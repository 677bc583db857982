/-
  Subject:   The days of a usage report (src/worker/usage-report-range.ts): the midnights of a timezone, and the
             buckets of a range, from its parameters as they are sent.

  A timezone is the local day of each instant. `zones` are the timezones of the platform and `parse` is
  `Date.parse` of an instant; nothing is asked of either.

  * **`Zone.midnight_spec`**: midnight is the first instant of its date;
  * `Tiles`: buckets side by side; **`fill_tiles`**: the loop lays them so;
  * **`buckets_tile`**: both, for the dates that are written in the order of their days.
-/
import ClawRouter.Lib.Bisect
import ClawRouter.Lib.Calendar
import ClawRouter.Lib.Value
import ClawRouter.Report.Projection

namespace ClawRouter.ReportRange

open Utf16 Decimal Calendar
open Report (reportDayMs reportRetentionMs)

/-! ## 1. Local dates -/

/-- A timezone: the local day of each instant. Days do not go back, and an instant's is the day in UTC of an
    instant less than 36 hours away. -/
structure Zone where
  localDay : Int → Int
  mono : ∀ a b, a ≤ b → localDay a ≤ localDay b
  near : ∀ instant, ∃ offset : Int, -(36 * 3600000) < offset ∧ offset < 36 * 3600000 ∧
    localDay instant = (instant + offset) / reportDayMs

/-- A date as the formatter writes it: the year of its era with as many digits as it has. -/
def formatted (day : Int) : Text :=
  decimal (if 1 ≤ yearOf day then yearOf day else 1 - yearOf day).toNat ++
    hyphen :: (padStart 2 (monthOf day + 1) ++ hyphen :: padStart 2 (dateOf day).toNat)

def Zone.label (zone : Zone) (instant : Int) : Text := formatted (zone.localDay instant)

def isDigit (u : UInt16) : Bool := 48 ≤ u.toNat && u.toNat ≤ 57

def isDate : Text → Bool
  | [y, y', y'', y''', h, m, m', h', d, d'] =>
    [y, y', y'', y''', m, m', d, d'].all isDigit && h == hyphen && h' == hyphen
  | _ => false

/-- The day of a date whose text is its own, of `Date.parse(date + "T00:00:00Z")`. -/
def readDay (date : Text) : Option Int :=
  if isDate date = true ∧ isoDate (parseDate date) = date then some (parseDate date) else none

def invalidDate : String := "invalid calendar date"

def Zone.midnight (zone : Zone) (date : Text) : Except String Int :=
  match readDay date with
  | none => .error invalidDate
  | some day =>
    let utc := day * reportDayMs
    .ok (Bisect.bisect (fun mid => textLt (zone.label mid) date) 29 (utc - 36 * 3600000) (utc + 36 * 3600000))

def rangeError : String := "Invalid time value"

/-- `nextUsageDate`. A date that is not read has no next one. -/
def nextUsageDate (date : Text) : Except String Text :=
  match readDay date with
  | none => .error rangeError
  | some day => .ok ((isoDate (day + 1)).take 10)

/-! ## 2. The range -/

/-- The parameters of a range. -/
structure RangeParams where
  days : Option Text
  from_ : Option Text
  to_ : Option Text
  timezone : Option Text

/-- A bucket and its label. -/
structure Bucket where
  start : Int
  end_ : Int
  label : Text

/-- A range with its buckets. -/
structure UsageReportRange where
  from_ : Int
  to_ : Int
  timezone : Text
  retentionStart : Int
  clampedStart : Bool
  buckets : List Bucket

def isOffset : Text → Bool
  | [z] => z == 0x5a
  | [sign, h, h', c, m, m'] => (sign == 0x2b || sign == hyphen) && [h, h', m, m'].all isDigit && c == 0x3a
  | _ => false

/-- The fraction of a second, where there is one, and the offset. -/
def isFraction : Text → Bool
  | [] => false
  | u :: rest =>
    if u = 0x2e then
      let digits := rest.takeWhile isDigit
      1 ≤ digits.length && digits.length ≤ 9 && isOffset (rest.dropWhile isDigit)
    else isOffset (u :: rest)

def isHour (h h' : UInt16) : Bool :=
  ((h == 0x30 || h == 0x31) && isDigit h') || (h == 0x32 && 48 ≤ h'.toNat && h'.toNat ≤ 51)

def isSixty (m m' : UInt16) : Bool := 48 ≤ m.toNat && m.toNat ≤ 53 && isDigit m'

def isInstant (value : Text) : Bool :=
  isDate (value.take 10) && match value.drop 10 with
    | t :: h :: h' :: c :: m :: m' :: c' :: s :: s' :: rest =>
      t == 0x54 && isHour h h' && c == 0x3a && isSixty m m' && c' == 0x3a && isSixty s s' && isFraction rest
    | _ => false

section Parse

/- `zones` are the timezones of the platform, `parse` is `Date.parse` of an instant. -/
variable (zones : Text → Option Zone) (parse : Text → Option Int)

def instant (zone : Zone) (value : Option Text) (fallback : Int) : Except String Int :=
  match value with
  | none => .ok fallback
  | some value =>
    if isDate value then zone.midnight value
    else if !isInstant value then .error "from/to must be dates or RFC3339 instants"
    else
      match parse value with
      | none => .error "invalid instant"
      | some at_ => if (readDay (value.take 10)).isSome then .ok at_ else .error "invalid instant"

def fill (zone : Zone) (to_ : Int) : Nat → Text → Int → List Bucket → Except String (Int × List Bucket)
  | 0, _, start, buckets => .ok (start, buckets)
  | days + 1, date, start, buckets =>
    if start < to_ ∧ buckets.length < 32 then do
      let nextDate ← nextUsageDate date
      let boundary ← zone.midnight nextDate
      let end_ := min to_ boundary
      if end_ > start then fill zone to_ days nextDate end_ (buckets ++ [⟨start, end_, date⟩])
      else fill zone to_ days nextDate start buckets
    else .ok (start, buckets)

def calendarDays (params : RangeParams) : Int :=
  parseDate (params.to_.getD []) - parseDate (params.from_.getD [])

def calendarRange (params : RangeParams) : Bool := isDate (params.from_.getD []) && isDate (params.to_.getD [])

/-- `Number(days ?? 7)` of the days that are admitted. -/
def daysNumber (days : Option Text) : Int := if days = some (Js.text "30") then 30 else 7

/-- The length of a range that is not admitted. -/
def tooLong (params : RangeParams) (from_ to_ : Int) : Bool :=
  if calendarRange params then calendarDays params > 30 || to_ - from_ > 31 * reportDayMs
  else to_ - from_ > 30 * reportDayMs

def parseUsageReportRange (params : RangeParams) (now : Int) : Except String UsageReportRange :=
  if params.days ≠ none ∧ params.days ≠ some (Js.text "7") ∧ params.days ≠ some (Js.text "30") then
    .error "days must be 7 or 30"
  else if params.days ≠ none ∧ (params.from_.isSome ∨ params.to_.isSome) then
    .error "days cannot be combined with from/to"
  else
    let timezone := params.timezone.getD (Js.text "UTC")
    if timezone.length > 100 ∨ timezone.head? = some 0x2b ∨ timezone.head? = some hyphen then
      .error "timezone must be an IANA timezone"
    else
      match zones timezone with
      | none => .error "timezone must be a supported IANA timezone"
      | some zone => do
        let to_ ← instant parse zone params.to_ now
        let requestedFrom ← instant parse zone params.from_ (to_ - daysNumber params.days * reportDayMs)
        if requestedFrom ≥ to_ ∨ tooLong params requestedFrom to_ = true then
          .error "range must be positive and at most 30 days"
        else if to_ > now then .error "to must not be in the future"
        else
          let retentionStart := now - reportRetentionMs
          let from_ := min to_ (max requestedFrom retentionStart)
          let (start, buckets) ← fill zone to_ 33 (zone.label from_) from_ []
          if start < to_ then .error "range exceeds 32 daily buckets"
          else .ok ⟨from_, to_, timezone, retentionStart, from_ ≠ requestedFrom, buckets⟩

end Parse

/-! ## 3. Midnights -/

/-- The days that the formatter writes as dates are written. -/
def Ordinary (day : Int) : Prop := dayFromYear 1000 ≤ day ∧ day < dayFromYear 10000

variable {day from_ to_ : Int}

theorem Ordinary.fourDigits (h : Ordinary day) : FourDigits day :=
  ⟨(dayFromYear_mono (by decide)).trans h.1, h.2⟩

theorem formatted_eq (h : Ordinary day) : formatted day = isoDate day := by
  have hle : 1000 ≤ yearOf day := le_yearOf h.1
  have hyear : padStart 4 (yearOf day).toNat = decimal (yearOf day).toNat := padStart_eq (by decide) (by omega)
  rw [isoDate_eq h.fourDigits, formatted, if_pos (by omega), hyear]

theorem isDate_parts {a b c : Text} (ha : a.length = 4) (hb : b.length = 2) (hc : c.length = 2)
    (hdigits : ∀ u ∈ a ++ b ++ c, isDigit u = true) : isDate (a ++ hyphen :: (b ++ hyphen :: c)) = true := by
  match a, ha, b, hb, c, hc with
  | [y, y', y'', y'''], _, [m, m'], _, [d, d'], _ =>
    unfold isDate
    simp only [List.cons_append, List.nil_append, beq_self_eq_true, Bool.and_true]
    rw [List.all_eq_true]
    exact hdigits

theorem isDate_isoDate (h : FourDigits day) : isDate (isoDate day) = true := by
  have hyear := h.year
  have hmonth := monthOf_le day
  have hdate := dateOf_le day
  rw [isoDate_eq h]
  refine isDate_parts (padStart_length (by decide) (by omega)) (padStart_length (by decide) (by omega))
    (padStart_length (by decide) (by omega)) fun u hu => ?_
  have hdigit : 48 ≤ u.toNat ∧ u.toNat ≤ 57 := by
    rcases List.mem_append.mp hu with hu | hu
    · rcases List.mem_append.mp hu with hu | hu
      · exact padStart_digits _ _ u hu
      · exact padStart_digits _ _ u hu
    · exact padStart_digits _ _ u hu
  unfold isDigit
  rw [Bool.and_eq_true, decide_eq_true_eq, decide_eq_true_eq]
  exact hdigit

theorem readDay_isoDate (h : FourDigits day) : readDay (isoDate day) = some day := by
  unfold readDay
  rw [parse_isoDate h, if_pos ⟨isDate_isoDate h, rfl⟩]

theorem nextUsageDate_isoDate (h : FourDigits day) (hnext : FourDigits (day + 1)) :
    nextUsageDate (isoDate day) = .ok (isoDate (day + 1)) := by
  unfold nextUsageDate
  rw [readDay_isoDate h]
  dsimp only
  rw [List.take_of_length_le (isoDate_length hnext).le]

theorem Zone.label_lt (zone : Zone) {instant : Int} (hlocal : Ordinary (zone.localDay instant))
    (hday : Ordinary day) :
    textLt (zone.label instant) (isoDate day) = decide (zone.localDay instant < day) := by
  unfold Zone.label
  rw [formatted_eq hlocal, textLt_isoDate hlocal.fourDigits hday.fourDigits]

/-- **Midnight is the first instant of a date or of one after it.** -/
theorem Zone.midnight_spec (zone : Zone) (hbefore : Ordinary (day - 3)) (hafter : Ordinary (day + 3)) :
    ∃ first, zone.midnight (isoDate day) = .ok first ∧ ∀ instant, instant < first ↔
      zone.localDay instant < day := by
  have hday : Ordinary day := ⟨by have := hbefore.1; omega, by have := hafter.2; omega⟩
  generalize hutc : day * reportDayMs = utc
  have hms : reportDayMs = 86400000 := rfl
  rw [hms] at hutc
  -- within 36 hours of midnight in UTC all local days are near, so the labels are in their order
  have hnear : ∀ instant, utc - 36 * 3600000 ≤ instant → instant ≤ utc + 36 * 3600000 →
      Ordinary (zone.localDay instant) := by
    intro instant hlow hhigh
    obtain ⟨offset, hneg, hpos, hlocal⟩ := zone.near instant
    rw [hms] at hlocal
    have h1 := hbefore.1
    have h2 := hafter.2
    exact ⟨by omega, by omega⟩
  have hlabel : ∀ instant, utc - 36 * 3600000 ≤ instant → instant ≤ utc + 36 * 3600000 →
      textLt (zone.label instant) (isoDate day) = decide
        (zone.localDay instant < day) := fun instant hlow hhigh =>
    zone.label_lt (hnear instant hlow hhigh) hday
  have hlow : zone.localDay (utc - 36 * 3600000) < day := by
    obtain ⟨offset, hneg, hpos, hlocal⟩ := zone.near (utc - 36 * 3600000)
    rw [hms] at hlocal
    omega
  have hhigh : ¬ zone.localDay (utc + 36 * 3600000) < day := by
    obtain ⟨offset, hneg, hpos, hlocal⟩ := zone.near (utc + 36 * 3600000)
    rw [hms] at hlocal
    omega
  have hmono : ∀ a b, utc - 36 * 3600000 ≤ a → a ≤ b → b ≤ utc + 36 * 3600000 →
      textLt (zone.label b) (isoDate day) = true → textLt (zone.label a) (isoDate day) = true := by
    intro a b ha hab hb htrue
    rw [hlabel b (ha.trans hab) hb, decide_eq_true_eq] at htrue
    rw [hlabel a ha (hab.trans hb), decide_eq_true_eq]
    exact (zone.mono a b hab).trans_lt htrue
  have hend : textLt (zone.label (utc + 36 * 3600000)) (isoDate day) = false := by
    rw [hlabel _ (by omega) le_rfl]
    exact decide_eq_false hhigh
  have hfound := Bisect.bisect_spec 29 (by omega) hmono hend (by omega)
  have hresult : zone.midnight (isoDate day) = .ok (Bisect.bisect
      (fun mid => textLt (zone.label mid) (isoDate day)) 29 (utc - 36 * 3600000) (utc + 36 * 3600000)) := by
    unfold Zone.midnight
    rw [readDay_isoDate hday.fourDigits]
    dsimp only
    rw [hms, hutc]
  rw [hresult]
  generalize Bisect.bisect (fun mid => textLt (zone.label mid) (isoDate day)) 29 (utc - 36 * 3600000)
    (utc + 36 * 3600000) = first at hfound ⊢
  obtain ⟨⟨hfrom, hto⟩, hfails, hall⟩ := hfound
  refine ⟨first, rfl, fun instant => ⟨fun hlt => ?_, fun hlt => ?_⟩⟩
  · by_cases hin : utc - 36 * 3600000 ≤ instant
    · have htrue := hall instant hin hlt
      rw [hlabel instant hin (by omega), decide_eq_true_eq] at htrue
      exact htrue
    · exact (zone.mono _ _ (by omega)).trans_lt hlow
  · by_contra hge
    rw [hlabel _ hfrom hto, decide_eq_false_iff_not] at hfails
    exact hfails ((zone.mono _ _ (not_lt.mp hge)).trans_lt hlt)

/-! ## 4. Buckets -/

/-- Buckets that lie side by side from one instant to another, each with the local date of all its instants. -/
def Tiles (zone : Zone) : Int → Int → List Bucket → Prop
  | from_, to_, [] => from_ = to_
  | from_, to_, bucket :: rest =>
    bucket.start = from_ ∧ bucket.start < bucket.end_ ∧
      (∀ instant, bucket.start ≤ instant → instant < bucket.end_ → zone.label instant = bucket.label) ∧
      Tiles zone bucket.end_ to_ rest

variable {buckets : List Bucket}

theorem Tiles.le {zone : Zone} (h : Tiles zone from_ to_ buckets) : from_ ≤ to_ := by
  induction buckets generalizing from_ with
  | nil => exact le_of_eq h
  | cons bucket rest ih =>
    obtain ⟨rfl, hlt, -, hrest⟩ := h
    exact hlt.le.trans (ih hrest)

theorem Tiles.covers {zone : Zone} (h : Tiles zone from_ to_ buckets)
    (instant : Int) : (from_ ≤ instant ∧ instant < to_) ↔
      ∃ bucket ∈ buckets, bucket.start ≤ instant ∧ instant < bucket.end_ := by
  induction buckets generalizing from_ with
  | nil =>
    have heq : from_ = to_ := h
    constructor
    · rintro ⟨hle, hlt⟩
      omega
    · rintro ⟨bucket, hin, -⟩
      cases hin
  | cons bucket rest ih =>
    obtain ⟨rfl, hlt, -, hrest⟩ := h
    have hle := hrest.le
    have hin := ih hrest
    constructor
    · rintro ⟨hfrom, hto⟩
      by_cases hnow : instant < bucket.end_
      · exact ⟨bucket, List.mem_cons_self, hfrom, hnow⟩
      · obtain ⟨other, hmem, hother⟩ := hin.mp ⟨not_lt.mp hnow, hto⟩
        exact ⟨other, List.mem_cons_of_mem _ hmem, hother⟩
    · rintro ⟨other, hmem, hstart, hend⟩
      rcases List.mem_cons.mp hmem with rfl | hmem
      · exact ⟨hstart, by omega⟩
      · obtain ⟨hfrom, hto⟩ := hin.mpr ⟨other, hmem, hstart, hend⟩
        exact ⟨by omega, hto⟩

theorem Tiles.disjoint {zone : Zone} (h : Tiles zone from_ to_ buckets) :
    buckets.Pairwise fun earlier later => earlier.end_ ≤ later.start := by
  induction buckets generalizing from_ with
  | nil => exact List.Pairwise.nil
  | cons bucket rest ih =>
    obtain ⟨rfl, hlt, -, hrest⟩ := h
    refine List.pairwise_cons.mpr ⟨fun later hmem => ?_, ih hrest⟩
    clear ih
    -- every later bucket starts at or after the end of this one
    generalize bucket.end_ = place at hrest
    induction rest generalizing place with
    | nil => cases hmem
    | cons next rest ih =>
      obtain ⟨rfl, hnext, -, hafter⟩ := hrest
      rcases List.mem_cons.mp hmem with rfl | hmem
      · exact le_rfl
      · exact hnext.le.trans (ih hmem _ hafter)

theorem fill_stops (zone : Zone) (to_ : Int) (days : Nat) (date : Text) {start : Int} (buckets : List Bucket)
    (h : ¬ start < to_) : fill zone to_ days date start buckets = .ok (start, buckets) := by
  cases days with
  | zero => rfl
  | succ days => exact if_neg fun hgo => h hgo.1

/-- **What the loop adds lies side by side from where it started to where it stopped**, which is the
    end where the
    dates up to that of the end fit in the buckets that are left. -/
theorem fill_tiles (zone : Zone) (hlast : zone.localDay to_ + 5 ≤ dayFromYear 10000) (days : Nat) :
    ∀ {day start : Int} {buckets : List Bucket}, dayFromYear 1000 + 2 ≤ day →
      day ≤ zone.localDay start → start ≤ to_ →
      buckets.length ≤ 32 → ∃ stop added, fill zone to_ days (isoDate day) start buckets = .ok
        (stop, buckets ++ added) ∧
        Tiles zone start stop added ∧ stop ≤ to_ ∧ (buckets ++ added).length ≤ 32 ∧
          (zone.localDay to_ + 1 - day ≤ days → zone.localDay to_ + 1 - day + buckets.length ≤ 32 →
            stop = to_) := by
  induction days with
  | zero =>
    intro day start buckets _ hday hle hcount
    have hlocal := zone.mono start to_ hle
    refine ⟨start, [], by rw [List.append_nil]; rfl, rfl, hle, by rw [List.append_nil]; exact hcount, fun hdays => ?_⟩
    push_cast at hdays
    omega
  | succ days ih =>
    intro day start buckets hfirst hday hle hcount
    have hlocal := zone.mono start to_ hle
    unfold fill
    by_cases hgo : start < to_ ∧ buckets.length < 32
    · have hordinary : ∀ d, day - 2 ≤ d → d ≤ day + 4 → Ordinary d := fun d hd hd' => ⟨by omega, by omega⟩
      obtain ⟨boundary, hmidnight, hbefore⟩ :=
        zone.midnight_spec (hordinary (day + 1 - 3) (by omega) (by omega))
        (hordinary (day + 1 + 3) (by omega) (by omega))
      rw [if_pos hgo, nextUsageDate_isoDate (hordinary day (by omega) (by omega)).fourDigits
        (hordinary (day + 1) (by omega) (by omega)).fourDigits]
      simp only [bind, Except.bind, hmidnight]
      by_cases hadd : min to_ boundary > start
      · rw [if_pos hadd]
        have hnext : day + 1 ≤ zone.localDay (min to_ boundary) ∨ min to_ boundary = to_ := by
          rcases le_total to_ boundary with hto | hto
          · exact .inr (min_eq_left hto)
          · rw [min_eq_right hto]
            exact .inl (not_lt.mp fun hlt => lt_irrefl _ ((hbefore boundary).mpr hlt))
        have hlabels :
    ∀ instant, start ≤ instant → instant < min to_ boundary → zone.label instant = isoDate day := by
          intro instant hstart hend
          have hlower := zone.mono start instant hstart
          have hupper := (hbefore instant).mp (hend.trans_le (min_le_right _ _))
          have heq : zone.localDay instant = day := by omega
          unfold Zone.label
          rw [heq, formatted_eq (hordinary day (by omega) (by omega))]
        have hone : (buckets ++ [(⟨start, min to_ boundary, isoDate day⟩ : Bucket)]).length =
          buckets.length + 1 :=
          List.length_append
        rcases hnext with hnext | hnext
        · obtain ⟨stop, added, hfill, htiles, hstop, hlength, hends⟩ := ih (by omega) hnext (min_le_left _ _)
            (by rw [hone]; exact hgo.2)
          refine ⟨stop, ⟨start, min to_ boundary, isoDate day⟩ :: added, ?_,
            ⟨rfl, hadd, hlabels, htiles⟩, hstop, ?_, ?_⟩
          · rw [hfill, List.append_assoc]
            rfl
          · rw [List.append_assoc] at hlength
            exact hlength
          · intro hdays hroom
            push_cast at hdays
            exact hends (by omega) (by rw [hone]; push_cast; omega)
        · rw [hnext, fill_stops zone to_ days _ _ (lt_irrefl to_)]
          rw [hnext] at hadd hlabels hone
          exact ⟨to_, [⟨start, to_, isoDate day⟩], rfl, ⟨rfl, hadd, hlabels, rfl⟩, le_rfl, by
            rw [hone]; exact hgo.2,
            fun _ _ => rfl⟩
      · rw [if_neg hadd]
        have hnext : day + 1 ≤ zone.localDay start := by
          refine not_lt.mp fun hlt => hadd ?_
          exact lt_min hgo.1 ((hbefore start).mpr hlt)
        obtain ⟨stop, added, hfill, htiles, hstop, hlength, hends⟩ := ih (by omega) hnext hle hcount
        refine ⟨stop, added, hfill, htiles, hstop, hlength, fun hdays hroom => ?_⟩
        push_cast at hdays
        exact hends (by omega) (by omega)
    · rw [if_neg hgo]
      refine ⟨start, [], by rw [List.append_nil], rfl, hle, by rw [List.append_nil]; exact hcount, fun _ hroom => ?_⟩
      exact le_antisymm hle (not_lt.mp fun hlt => hgo ⟨hlt, by omega⟩)

/-- The clock reads a year that the formatter writes as dates are written, 40 days from either end. -/
def OrdinaryNow (now : Int) : Prop :=
  dayFromYear 1000 + 40 ≤ now / reportDayMs ∧ now / reportDayMs + 10 ≤ dayFromYear 10000

theorem filled_tiles (zone : Zone) {now : Int} (hnow : OrdinaryNow now) (hpast : to_ ≤ now)
    (hle : from_ ≤ to_) (hretained : from_ < to_ → now - reportRetentionMs ≤ from_) {stop : Int}
    (h : fill zone to_ 33 (zone.label from_) from_ [] = .ok (stop, buckets)) (hstop : ¬ stop < to_) :
    Tiles zone from_ to_ buckets ∧ buckets.length ≤ 32 := by
  rcases lt_or_eq_of_le hle with hlt | rfl
  · have hretention : reportRetentionMs = 30 * 86400000 := rfl
    have hms : reportDayMs = 86400000 := rfl
    obtain ⟨hfirst, hlast⟩ := hnow
    rw [hms] at hfirst hlast
    have hfrom := hretained hlt
    rw [hretention] at hfrom
    obtain ⟨offset, hneg, hpos, hlocalFrom⟩ := zone.near from_
    obtain ⟨offset', hneg', hpos', hlocalTo⟩ := zone.near to_
    rw [hms] at hlocalFrom hlocalTo
    have hordinary : Ordinary (zone.localDay from_) := ⟨by omega, by omega⟩
    have hlabel : zone.label from_ = isoDate (zone.localDay from_) := formatted_eq hordinary
    rw [hlabel] at h
    obtain ⟨_, added, hfill, htiles, hend, hlength, -⟩ := fill_tiles zone (by omega) 33 (by omega) le_rfl hle
      (show ([] : List Bucket).length ≤ 32 from Nat.zero_le 32)
    cases hfill.symm.trans h
    obtain rfl : stop = to_ := le_antisymm hend (not_lt.mp hstop)
    exact ⟨htiles, hlength⟩
  · rw [fill_stops zone from_ 33 _ _ (lt_irrefl from_)] at h
    cases h
    exact ⟨rfl, by decide⟩

theorem parse_tiled (zones : Text → Option Zone) (parse : Text → Option Int) (params : RangeParams) {now : Int}
    (hnow : OrdinaryNow now) {range : UsageReportRange}
    (h : parseUsageReportRange zones parse params now = .ok range) :
    ∃ zone, zones range.timezone = some zone ∧ Tiles zone range.from_ range.to_ range.buckets ∧
      range.buckets.length ≤ 32 := by
  unfold parseUsageReportRange at h
  split at h
  · cases h
  split at h
  · cases h
  dsimp only at h
  split at h
  · cases h
  cases hzone : zones (params.timezone.getD (Js.text "UTC")) with
  | none => rw [hzone] at h; cases h
  | some zone =>
    rw [hzone] at h
    simp only [bind, Except.bind] at h
    cases hto : instant parse zone params.to_ now with
    | error message => rw [hto] at h; cases h
    | ok to_ =>
      rw [hto] at h
      dsimp only at h
      cases hfrom : instant parse zone params.from_ (to_ - daysNumber params.days * reportDayMs) with
      | error message => rw [hfrom] at h; cases h
      | ok requestedFrom =>
        rw [hfrom] at h
        dsimp only at h
        split at h
        · cases h
        rename_i hpositive
        split at h
        · cases h
        rename_i hpast
        generalize hstart : min to_ (max requestedFrom (now - reportRetentionMs)) = from_ at h
        cases hfill : fill zone to_ 33 (zone.label from_) from_ [] with
        | error message => rw [hfill] at h; cases h
        | ok filled =>
          obtain ⟨stop, buckets⟩ := filled
          rw [hfill] at h
          dsimp only at h
          split at h
          · cases h
          rename_i hstop
          cases h
          have hrange := filled_tiles zone hnow (not_lt.mp hpast) (by rw [← hstart]; exact min_le_left _ _)
            (fun hlt => by omega) hfill hstop
          exact ⟨zone, hzone, hrange⟩

/-- The last 7 or 30 days, in a timezone of the platform. -/
structure Rolling (zones : Text → Option Zone) (params : RangeParams) (zone : Zone) : Prop where
  days : params.days = none ∨ params.days = some (Js.text "7") ∨ params.days = some (Js.text "30")
  ends : params.from_ = none ∧ params.to_ = none
  name : (params.timezone.getD (Js.text "UTC")).length ≤ 100
  unsigned : ∀ u, (params.timezone.getD (Js.text "UTC")).head? = some u → u ≠ 0x2b ∧ u ≠ hyphen
  known : zones (params.timezone.getD (Js.text "UTC")) = some zone

theorem rolling_parsed {zones : Text → Option Zone} {params : RangeParams} {zone : Zone} {now from_ : Int}
    (parse : Text → Option Int) (h : Rolling zones params zone) (hnow : OrdinaryNow now)
    (hfrom : now - daysNumber params.days * reportDayMs = from_)
    (hdates : zone.localDay now ≤ zone.localDay from_ + 31) :
    ∃ buckets, parseUsageReportRange zones parse params now =
      .ok ⟨from_, now, params.timezone.getD (Js.text "UTC"), now - reportRetentionMs, false, buckets⟩ := by
  have hms : reportDayMs = 86400000 := rfl
  have hretention : reportRetentionMs = 30 * 86400000 := rfl
  have hdays : daysNumber params.days = 7 ∨ daysNumber params.days = 30 := by
    unfold daysNumber
    split
    · exact .inr rfl
    · exact .inl rfl
  have hlt : from_ < now ∧ now - 30 * 86400000 ≤ from_ := by
    rw [hms] at hfrom
    omega
  obtain ⟨hfirst, hlast⟩ := hnow
  rw [hms] at hfirst hlast
  obtain ⟨offset, hneg, hpos, hlocalFrom⟩ := zone.near from_
  obtain ⟨offset', hneg', hpos', hlocalTo⟩ := zone.near now
  rw [hms] at hlocalFrom hlocalTo
  have hordinary : Ordinary (zone.localDay from_) := ⟨by omega, by omega⟩
  obtain ⟨stop, all, hfill, -, -, -, hends⟩ := fill_tiles zone (by omega) 33 (by omega) le_rfl hlt.1.le
    (show ([] : List Bucket).length ≤ 32 from Nat.zero_le 32)
  have hstop := hends (by push_cast; omega) (by rw [List.length_nil]; push_cast; omega)
  rw [List.nil_append, hstop] at hfill
  have hlabel : zone.label from_ = isoDate (zone.localDay from_) := formatted_eq hordinary
  have hlong : tooLong params from_ now = false := by
    unfold tooLong calendarRange
    rw [h.ends.1, hms]
    exact decide_eq_false (by omega)
  have hstart : min now (max from_ (now - reportRetentionMs)) = from_ := by
    rw [hretention, max_eq_left hlt.2, min_eq_right hlt.1.le]
  refine ⟨all, ?_⟩
  unfold parseUsageReportRange
  rw [if_neg fun hbad => hbad.2.2 ((h.days.resolve_left hbad.1).resolve_left hbad.2.1), if_neg fun hbad => ?_]
  · dsimp only
    rw [if_neg fun hbad => ?_, h.known]
    · simp only [bind, Except.bind, h.ends, instant, hfrom, hstart, hlabel, hfill]
      rw [if_neg fun hbad => ?_, if_neg (lt_irrefl now), if_neg (lt_irrefl now)]
      · exact congrArg Except.ok (congrArg (UsageReportRange.mk _ _ _ _ · _)
          (decide_eq_false fun hne => hne rfl))
      · rw [hlong] at hbad
        exact hbad.elim (fun hle => absurd hlt.1 (not_lt.mpr hle)) fun e => Bool.false_ne_true e
    · rcases hbad with hbad | hbad | hbad
      · exact absurd h.name (not_le.mpr hbad)
      · exact (h.unsigned _ hbad).1 rfl
      · exact (h.unsigned _ hbad).2 rfl
  · rw [h.ends.1, h.ends.2] at hbad
    exact hbad.2.elim Bool.false_ne_true Bool.false_ne_true

/-- **The buckets of a report tile its range by local date.** Midnight of a date is its first
    instant, or that of
    the next date there is; the buckets of an accepted range are at most 32, none is empty, they
    follow each other
    without a gap, an instant is in a bucket exactly where it is in the range, and every instant of
    a bucket has its
    label as the local date. -/
theorem buckets_tile : (∀ (zone : Zone) (day : Int), Ordinary (day - 3) → Ordinary (day + 3) →
      ∃ first, zone.midnight (isoDate day) = .ok first ∧ ∀ instant, instant < first ↔
        zone.localDay instant < day) ∧
    ∀ (zones : Text → Option Zone) (parse : Text → Option Int) (params : RangeParams) (now : Int),
      OrdinaryNow now →
      ∀ range, parseUsageReportRange zones parse params now = .ok range →
        ∃ zone, zones range.timezone = some zone ∧ Tiles zone range.from_ range.to_ range.buckets ∧
          range.buckets.length ≤ 32 ∧ (range.buckets.Pairwise fun earlier later => earlier.end_ ≤
            later.start) ∧
          ∀ instant, (range.from_ ≤ instant ∧ instant < range.to_) ↔
            ∃ bucket ∈ range.buckets, bucket.start ≤ instant ∧ instant < bucket.end_ := by
  refine ⟨fun zone day hbefore hafter => zone.midnight_spec hbefore hafter, ?_⟩
  intro zones parse params now hnow range h
  obtain ⟨zone, hzone, htiles, hcount⟩ := parse_tiled zones parse params hnow h
  exact ⟨zone, hzone, htiles, hcount, htiles.disjoint, htiles.covers⟩

/-- **The last 7 or 30 days are never refused** where the local dates of their ends are at most 31
    apart: the range is
    those days to the millisecond, nothing of it is cut off, and its buckets tile it. -/
theorem rolling_tiled {zones : Text → Option Zone} {params : RangeParams} {zone : Zone} {now from_ : Int}
    (parse : Text → Option Int) (h : Rolling zones params zone) (hnow : OrdinaryNow now)
    (hfrom : now - daysNumber params.days * reportDayMs = from_)
    (hdates : zone.localDay now ≤ zone.localDay from_ + 31) :
    ∃ buckets, parseUsageReportRange zones parse params now =
        .ok ⟨from_, now, params.timezone.getD (Js.text "UTC"), now - reportRetentionMs, false, buckets⟩ ∧
      Tiles zone from_ now buckets ∧ buckets.length ≤ 32 ∧
        ∀ instant, (from_ ≤ instant ∧ instant < now) ↔ ∃ bucket ∈ buckets, bucket.start ≤ instant ∧
          instant < bucket.end_ := by
  obtain ⟨buckets, hparsed⟩ := rolling_parsed parse h hnow hfrom hdates
  obtain ⟨zone', hzone, htiles, hcount⟩ := parse_tiled zones parse params hnow hparsed
  obtain rfl : zone = zone' := Option.some.inj (h.known.symm.trans hzone)
  exact ⟨buckets, hparsed, htiles, hcount, htiles.covers⟩

/-! ## 5. UTC -/

def utc : Zone where
  localDay :=
  fun instant => instant / reportDayMs
  mono := fun a b hab => Int.ediv_le_ediv (by decide) hab
  near := fun instant => ⟨0, by decide, by decide, by rw [Int.add_zero]⟩

/-- The year 500 is written with three digits, so its midnights are not found. -/
theorem midnight_of_500 : readDay (Js.text "0500-01-01") = some (-536906) ∧
    ∃ first, utc.midnight (Js.text "0500-01-01") = .ok first ∧
      ¬ ∀ instant, instant < first ↔ utc.localDay instant < -536906 := by
  refine ⟨by decide +kernel, -536906 * reportDayMs - 36 * 3600000, by decide +kernel, fun h => ?_⟩
  have hbefore : utc.localDay (-536906 * reportDayMs - 36 * 3600000) < -536906 := by decide
  exact lt_irrefl _ ((h _).mpr hbefore)

def onlyUtc (name : Text) : Option Zone := if name = Js.text "UTC" then some utc else none

def lastWeek : RangeParams := ⟨none, none, none, none⟩

theorem lastWeek_rolling : Rolling onlyUtc lastWeek utc where
  days := .inl rfl
  ends := ⟨rfl, rfl⟩
  name := by decide
  unsigned := by
    intro u hu
    cases hu
    decide
  known := if_pos rfl

/-- Eight dates, from noon to noon. -/
theorem lastWeek_rolled : ∃ buckets, parseUsageReportRange onlyUtc (fun _ => none) lastWeek
      (19800 * reportDayMs + 43200000) = .ok ⟨19793 * reportDayMs + 43200000, 19800 * reportDayMs + 43200000,
        Js.text "UTC", 19770 * reportDayMs + 43200000, false, buckets⟩ ∧ buckets.length ≤ 32 := by
  obtain ⟨buckets, hparsed, -, hcount, -⟩ := rolling_tiled (fun _ => none) lastWeek_rolling
    (show OrdinaryNow (19800 * reportDayMs + 43200000) from ⟨by decide, by decide⟩) rfl (by decide)
  exact ⟨buckets, hparsed, hcount⟩

/-- The last week before noon of a day in 2024. -/
theorem lastWeek_tiled :
    (∃ first, utc.midnight (isoDate 19800) = .ok first ∧ ∀ instant, instant < first ↔
      utc.localDay instant < 19800) ∧
    ∃ range, parseUsageReportRange onlyUtc (fun _ => none) lastWeek
      (19800 * reportDayMs + 43200000) = .ok range ∧
      range.buckets.length ≤ 32 ∧ ∀ instant, (range.from_ ≤ instant ∧ instant < range.to_) ↔
        ∃ bucket ∈ range.buckets, bucket.start ≤ instant ∧ instant < bucket.end_ := by
  refine ⟨buckets_tile.1 utc 19800 ⟨by decide, by decide⟩ ⟨by decide, by decide⟩, ?_⟩
  have haccepted : (parseUsageReportRange onlyUtc (fun _ => none) lastWeek
      (19800 * reportDayMs + 43200000)).toBool = true := by
    obtain ⟨buckets, hparsed⟩ := rolling_parsed (fun _ => none) lastWeek_rolling
      (show OrdinaryNow (19800 * reportDayMs + 43200000) from ⟨by decide, by decide⟩) rfl (by decide)
    rw [hparsed]
    rfl
  cases h : parseUsageReportRange onlyUtc (fun _ => none) lastWeek (19800 * reportDayMs + 43200000) with
  | error message => rw [h] at haccepted; cases haccepted
  | ok range =>
    obtain ⟨_, _, _, hcount, _, hcovers⟩ := buckets_tile.2 onlyUtc (fun _ => none) lastWeek
      (19800 * reportDayMs + 43200000) ⟨by decide, by decide⟩ range h
    exact ⟨range, rfl, hcount, hcovers⟩

end ClawRouter.ReportRange
