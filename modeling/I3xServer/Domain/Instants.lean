import I3xServer.Container.FixedWidth

/-!
# Instants and their text

A date and time in UTC, the instant it denotes in microseconds, and its text in the
extended format, whose fraction is left out at whole seconds.
-/
namespace I3x
open Container

def isLeap (year : Nat) : Bool := year % 4 = 0 && (year % 100 ≠ 0 || year % 400 = 0)

def daysInMonth (year : Nat) : Nat → Nat
  | 2 => if isLeap year then 29 else 28
  | 1 | 3 | 5 | 7 | 8 | 10 | 12 => 31
  | 4 | 6 | 9 | 11 => 30
  | _ => 0

def daysBeforeYear (year : Nat) : Nat := (year - 1) * 365 + (year - 1) / 4 - (year - 1) / 100 + (year - 1) / 400

def daysBeforeMonth (year month : Nat) : Nat := ((List.range month).map (daysInMonth year)).sum

/-- A date and time in UTC. -/
structure UtcDateTime where
  year : Nat
  month : Nat
  day : Nat
  hour : Nat
  minute : Nat
  second : Nat
  microsecond : Nat
  year_bounds : 1 ≤ year ∧ year ≤ 9999
  month_bounds : 1 ≤ month ∧ month ≤ 12
  day_bounds : 1 ≤ day ∧ day ≤ daysInMonth year month
  hour_lt : hour < 24
  minute_lt : minute < 60
  second_lt : second < 60
  microsecond_lt : microsecond < 1000000
  deriving DecidableEq

namespace UtcDateTime
variable (t : UtcDateTime)

def toordinal : Nat := daysBeforeYear t.year + daysBeforeMonth t.year t.month + t.day

/-- The whole seconds before an instant. -/
def wholeSeconds : Nat := ((t.toordinal * 24 + t.hour) * 60 + t.minute) * 60 + t.second

/-- The instant in microseconds. -/
def instant : Nat := t.wholeSeconds * 1000000 + t.microsecond

/-- The text up to the whole seconds, before what follows. -/
def secondsText (rest : List Char) : List Char :=
  padded 4 t.year ++ '-' :: (padded 2 t.month ++ '-' :: (padded 2 t.day ++ 'T' :: (padded 2 t.hour ++ ':' ::
    (padded 2 t.minute ++ ':' :: (padded 2 t.second ++ rest)))))

def fractionText : List Char := if t.microsecond = 0 then [] else '.' :: padded 6 t.microsecond

/-- `_format_utc_timestamp`. -/
def formatUtcTimestamp : String := String.ofList (t.secondsText (t.fractionText ++ ['Z']))

end UtcDateTime

/-! ## The calendar -/

theorem isLeap_iff (year : Nat) : isLeap year = true ↔ year % 4 = 0 ∧ (year % 100 ≠ 0 ∨ year % 400 = 0) := by
  simp [isLeap]

theorem daysBeforeMonth_succ (year month : Nat) :
    daysBeforeMonth year (month + 1) = daysBeforeMonth year month + daysInMonth year month := by
  simp [daysBeforeMonth, List.range_succ]

theorem daysBeforeMonth_mono (year : Nat) {month month' : Nat} (le : month ≤ month') :
    daysBeforeMonth year month ≤ daysBeforeMonth year month' := by
  induction le with
  | refl => exact Nat.le_refl _
  | step _ ih => exact ih.trans (by rw [daysBeforeMonth_succ]; omega)

theorem daysBeforeMonth_year (year : Nat) : daysBeforeMonth year 13 = if isLeap year then 366 else 365 := by
  have february : daysInMonth year 2 = if isLeap year then 29 else 28 := rfl
  have months : daysBeforeMonth year 13 = 337 + daysInMonth year 2 := by
    simp [daysBeforeMonth, List.range_succ, daysInMonth]
    omega
  rw [months, february]
  split <;> rfl

theorem daysBeforeYear_succ {year : Nat} (pos : 1 ≤ year) :
    daysBeforeYear (year + 1) = daysBeforeYear year + daysBeforeMonth year 13 := by
  obtain ⟨y, rfl⟩ : ∃ y, year = y + 1 := ⟨year - 1, by omega⟩
  have fewer : y / 100 ≤ y / 4 := Nat.div_le_div_left (by omega) (by omega)
  have carry (n : Nat) : (y + 1) / n = y / n + if (y + 1) % n = 0 then 1 else 0 := by
    simp only [Nat.succ_div, Nat.dvd_iff_mod_eq_zero]
  have leap : (if isLeap (y + 1) then 366 else 365) + (if (y + 1) % 100 = 0 then 1 else 0) =
      365 + (if (y + 1) % 4 = 0 then 1 else 0) + if (y + 1) % 400 = 0 then 1 else 0 := by
    simp only [isLeap_iff]
    split_ifs <;> omega
  rw [daysBeforeMonth_year, daysBeforeYear, daysBeforeYear, Nat.add_sub_cancel, Nat.add_sub_cancel, carry 4,
    carry 100, carry 400]
  generalize (if isLeap (y + 1) then 366 else 365) = days at *
  split_ifs at * <;> omega

theorem daysBeforeYear_mono {year year' : Nat} (le : year ≤ year') : daysBeforeYear year ≤ daysBeforeYear year' := by
  induction le with
  | refl => exact Nat.le_refl _
  | @step year' _ ih =>
      refine ih.trans ?_
      rcases Nat.eq_zero_or_pos year' with zero | pos
      · rw [zero]
        exact Nat.le_refl _
      · rw [Nat.succ_eq_add_one, daysBeforeYear_succ pos]
        omega

namespace UtcDateTime
variable {t t' : UtcDateTime}

theorem toordinal_lt_year (less : t.year < t'.year) : t.toordinal < t'.toordinal := by
  have day := t.day_bounds.2
  have month := daysBeforeMonth_succ t.year t.month
  have months : daysBeforeMonth t.year (t.month + 1) ≤ daysBeforeMonth t.year 13 :=
    daysBeforeMonth_mono t.year (Nat.succ_le_succ t.month_bounds.2)
  have year := daysBeforeYear_succ t.year_bounds.1
  have years : daysBeforeYear (t.year + 1) ≤ daysBeforeYear t'.year := daysBeforeYear_mono less
  have day' := t'.day_bounds.1
  unfold toordinal
  omega

theorem toordinal_lt_month (year : t.year = t'.year) (less : t.month < t'.month) : t.toordinal < t'.toordinal := by
  have day := t.day_bounds.2
  have month := daysBeforeMonth_succ t.year t.month
  have months : daysBeforeMonth t.year (t.month + 1) ≤ daysBeforeMonth t.year t'.month := daysBeforeMonth_mono t.year less
  have day' := t'.day_bounds.1
  unfold toordinal
  rw [← year]
  omega

/-- The earlier of two whole seconds has the smaller text. -/
theorem secondsText_lt (less : t.wholeSeconds < t'.wholeSeconds) (s s' : List Char) :
    t.secondsText s < t'.secondsText s' := by
  have hour := t.hour_lt
  have hour' := t'.hour_lt
  have minute := t.minute_lt
  have minute' := t'.minute_lt
  have second := t.second_lt
  have second' := t'.second_lt
  have small (n : Nat) (bound : n < 60) : n < 10 ^ 2 := by omega
  have day_small (t : UtcDateTime) : t.day < 10 ^ 2 := by
    have day := t.day_bounds.2
    have most : daysInMonth t.year t.month ≤ 31 := by
      unfold daysInMonth
      split <;> first | omega | (split <;> omega)
    omega
  have month_small : t'.month < 10 ^ 2 := by
    have month := t'.month_bounds.2
    omega
  have year_small : t'.year < 10 ^ 4 := by
    have year := t'.year_bounds.2
    omega
  unfold secondsText
  rcases Nat.lt_trichotomy t.year t'.year with year | year | year
  · exact padded_lt year year_small _ _
  · rw [year]
    refine append_lt_append _ (List.cons_lt_cons_iff.mpr (.inr ⟨rfl, ?_⟩))
    rcases Nat.lt_trichotomy t.month t'.month with month | month | month
    · exact padded_lt month month_small _ _
    · rw [month]
      refine append_lt_append _ (List.cons_lt_cons_iff.mpr (.inr ⟨rfl, ?_⟩))
      have ordinal : t.toordinal + t'.day = t'.toordinal + t.day := by
        unfold toordinal
        rw [year, month]
        omega
      unfold wholeSeconds at less
      rcases Nat.lt_trichotomy t.day t'.day with day | day | day
      · exact padded_lt day (day_small t') _ _
      · rw [day]
        refine append_lt_append _ (List.cons_lt_cons_iff.mpr (.inr ⟨rfl, ?_⟩))
        rcases Nat.lt_trichotomy t.hour t'.hour with sooner | same | later
        · exact padded_lt sooner (small _ (by omega)) _ _
        · rw [same]
          refine append_lt_append _ (List.cons_lt_cons_iff.mpr (.inr ⟨rfl, ?_⟩))
          rcases Nat.lt_trichotomy t.minute t'.minute with sooner | same' | later
          · exact padded_lt sooner (small _ minute') _ _
          · rw [same']
            refine append_lt_append _ (List.cons_lt_cons_iff.mpr (.inr ⟨rfl, ?_⟩))
            exact padded_lt (by omega) (small _ second') _ _
          · omega
        · omega
      · omega
    · have ordinal := toordinal_lt_month year.symm month
      unfold wholeSeconds at less
      omega
  · have ordinal := toordinal_lt_year year
    unfold wholeSeconds at less
    omega

/-- One whole second has one text. -/
theorem secondsText_eq (same : t.wholeSeconds = t'.wholeSeconds) (rest : List Char) :
    t.secondsText rest = t'.secondsText rest := by
  have hour := t.hour_lt
  have hour' := t'.hour_lt
  have minute := t.minute_lt
  have minute' := t'.minute_lt
  have second := t.second_lt
  have second' := t'.second_lt
  unfold wholeSeconds at same
  have ordinal : t.toordinal = t'.toordinal := by omega
  have year : t.year = t'.year := by
    rcases Nat.lt_trichotomy t.year t'.year with less | same | less
    · exact absurd ordinal (Nat.ne_of_lt (toordinal_lt_year less))
    · exact same
    · exact absurd ordinal (Nat.ne_of_gt (toordinal_lt_year less))
  have month : t.month = t'.month := by
    rcases Nat.lt_trichotomy t.month t'.month with less | same | less
    · exact absurd ordinal (Nat.ne_of_lt (toordinal_lt_month year less))
    · exact same
    · exact absurd ordinal (Nat.ne_of_gt (toordinal_lt_month year.symm less))
  have day : t.day = t'.day := by
    unfold toordinal at ordinal
    rw [year, month] at ordinal
    omega
  unfold secondsText
  rw [year, month, day, show t.hour = t'.hour by omega, show t.minute = t'.minute by omega,
    show t.second = t'.second by omega]

theorem secondsText_append (t : UtcDateTime) (rest : List Char) : t.secondsText rest = t.secondsText [] ++ rest := by
  simp only [secondsText, List.append_nil, List.append_assoc, List.cons_append]

/-- Texts are ordered as instants, unless one of two in the same second has no
fraction. -/
theorem formatUtcTimestamp_lt (sameForm : t.wholeSeconds = t'.wholeSeconds → (t.microsecond = 0 ↔ t'.microsecond = 0))
    (less : t.instant < t'.instant) : t.formatUtcTimestamp < t'.formatUtcTimestamp := by
  have micro := t.microsecond_lt
  have micro' := t'.microsecond_lt
  unfold instant at less
  rw [formatUtcTimestamp, formatUtcTimestamp, String.lt_iff, String.toList_ofList, String.toList_ofList]
  rcases Nat.lt_trichotomy t.wholeSeconds t'.wholeSeconds with sooner | same | later
  · exact secondsText_lt sooner _ _
  · have positive : t'.microsecond ≠ 0 := by omega
    have fraction : t.microsecond ≠ 0 := fun whole => positive ((sameForm same).mp whole)
    rw [secondsText_eq same, secondsText_append, secondsText_append _ (t'.fractionText ++ _), fractionText, fractionText,
      if_neg fraction, if_neg positive]
    refine append_lt_append _ (List.cons_lt_cons_iff.mpr (.inr ⟨rfl, ?_⟩))
    exact padded_lt (by omega) micro' _ _
  · omega

/-- Within one second a fraction comes before none. -/
theorem formatUtcTimestamp_fraction (same : t.wholeSeconds = t'.wholeSeconds) (fraction : t.microsecond ≠ 0)
    (whole : t'.microsecond = 0) : t.formatUtcTimestamp < t'.formatUtcTimestamp := by
  rw [formatUtcTimestamp, formatUtcTimestamp, String.lt_iff, String.toList_ofList, String.toList_ofList,
    secondsText_eq same, secondsText_append, secondsText_append _ (t'.fractionText ++ _), fractionText, fractionText,
    if_neg fraction, if_pos whole]
  exact append_lt_append _ (List.cons_lt_cons_iff.mpr (.inl (by decide)))

end UtcDateTime
end I3x
