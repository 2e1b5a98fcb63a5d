import WiseOrder.Foundation.Digits
import WiseOrder.Python

/-! The order of the texts of times. A text has the fields of a time from the year down, each to a
fixed width, but for the microseconds, which are left out where there are none: what comes
then is a sign, which is before the point that they come after. -/
namespace WiseOrder.Python
open Digits

/-- The times that a datetime has: the years 1 to 9999. -/
def Datetime (t : Time) : Prop := -62135596800 * second ≤ t ∧ t < 253402300800 * second

/-! ### The calendar -/

/-- The days of an era without its leap days, with each year of 365 days. -/
def evened (doe : Nat) : Nat := doe - doe / 1460 + doe / 36524 - doe / 146096

/-- The day of the era on which a year begins. -/
def yearStart (y : Nat) : Nat := 365 * y + y / 4 - y / 100

/-- The day of the year on which a month begins, from March on. -/
def monthStart (mp : Nat) : Nat := (153 * mp + 2) / 5

section
variable {a b doe doy : Nat} {d d' : Int}

theorem evened_mono (le : a ≤ b) (inside : b ≤ 146097) : evened a ≤ evened b := by
  have leaps : a - a / 1460 ≤ b - b / 1460 := by omega
  have centuries : a / 36524 - a / 146096 ≤ b / 36524 - b / 146096 := by omega
  simp only [evened]
  omega

/-- At the borders of the years. -/
theorem evened_year : ∀ y < 400, 365 * y ≤ evened (yearStart y) ∧
    evened (yearStart (y + 1) - 1) < 365 * (y + 1) := by
  decide +kernel

theorem year_begun (inside : doe < 146097) : evened doe / 365 < 400 ∧
    yearStart (evened doe / 365) ≤ doe ∧ doe ≤ yearStart (evened doe / 365) + 365 := by
  have few : evened doe / 365 < 400 := by
    have last : evened doe ≤ evened 146096 := evened_mono (by omega) (by decide)
    have count : evened 146096 = 145999 := by decide
    omega
  generalize year : evened doe / 365 = y at few
  refine ⟨few, ?_, ?_⟩
  · by_contra late
    obtain _ | y := y
    · simp [yearStart] at late
    · have before : evened doe ≤ evened (yearStart (y + 1) - 1) := by
        apply evened_mono (by omega)
        simp only [yearStart]
        omega
      have ends := (evened_year y (by omega)).2
      omega
  · by_contra early
    have longest : yearStart (y + 1) ≤ yearStart y + 366 := by
      simp only [yearStart]
      omega
    by_cases last : y = 399
    · subst last
      have start : yearStart 399 = 145731 := by decide
      omega
    · have after : evened (yearStart (y + 1)) ≤ evened doe := evened_mono (by omega) (by omega)
      have begins := (evened_year (y + 1) (by omega)).1
      omega

/-- The year that a day is in and the day of that year, where years begin with March. -/
def march (days : Int) : Int × Nat :=
  let z := days + 719468
  let doe := (z % 146097).toNat
  (((evened doe / 365 : Nat) : Int) + z / 146097 * 400, doe - yearStart (evened doe / 365))

/-- The date of a day of a year that begins with March. -/
def fromMarch (y : Int) (doy : Nat) : Int × Nat × Nat :=
  let mp := (5 * doy + 2) / 153
  let month := if mp < 10 then mp + 3 else mp - 9
  (y + (if month ≤ 2 then 1 else 0), month, doy - monthStart mp + 1)

theorem civil_march (d : Int) : civil d = fromMarch (march d).1 (march d).2 := rfl

theorem march_day (d : Int) : (march d).2 ≤ 365 := by
  have inside : ((d + 719468) % 146097).toNat < 146097 := by omega
  obtain ⟨few, begun, ends⟩ := year_begun inside
  simp only [march, yearStart] at begun ends ⊢
  omega

theorem march_lt (less : d < d') : (march d).1 < (march d').1 ∨ (march d).1 = (march d').1 ∧
    (march d).2 < (march d').2 := by
  have inside (d : Int) : ((d + 719468) % 146097).toNat < 146097 := by omega
  obtain ⟨few, begun, -⟩ := year_begun (inside d)
  obtain ⟨few', begun', -⟩ := year_begun (inside d')
  rcases lt_or_eq_of_le (show (d + 719468) / 146097 ≤
    (d' + 719468) / 146097 by omega) with era | era
  · left
    simp only [march]
    omega
  · have years := evened_mono (a := ((d + 719468) % 146097).toNat) (b :=
      ((d' + 719468) % 146097).toNat) (by omega) (by omega)
    simp only [march, era]
    rcases lt_or_eq_of_le (Nat.div_le_div_right years (c := 365)) with year | year
    · left
      omega
    · right
      rw [year] at begun ⊢
      omega

/-- A date is earlier than another. -/
def Earlier (a b : Int × Nat × Nat) : Prop := a.1 < b.1 ∨ a.1 = b.1 ∧
    (a.2.1 < b.2.1 ∨ a.2.1 = b.2.1 ∧ a.2.2 < b.2.2)

theorem fromMarch_month (y : Int) (inside : doy ≤ 365) :
    12 * (fromMarch y doy).1 + (fromMarch y doy).2.1 = 12 * y + ((5 * doy + 2) / 153 : Nat) + 3 ∧
    1 ≤ (fromMarch y doy).2.1 ∧ (fromMarch y doy).2.1 ≤ 12 := by
  have months : (5 * doy + 2) / 153 ≤ 11 := by omega
  simp only [fromMarch]
  generalize (5 * doy + 2) / 153 = mp at *
  split_ifs <;> omega

theorem fromMarch_lt {y y' : Int} {doy doy' : Nat} (inside : doy ≤ 365) (inside' : doy' ≤ 365)
    (less : y < y' ∨ y = y' ∧ doy < doy') : Earlier (fromMarch y doy) (fromMarch y' doy') := by
  obtain ⟨months, some, few⟩ := fromMarch_month y inside
  obtain ⟨months', some', few'⟩ := fromMarch_month y' inside'
  have begun : monthStart ((5 * doy + 2) / 153) ≤ doy := by
    simp only [monthStart]
    omega
  have later : 12 * y + ((5 * doy + 2) / 153 : Nat) < 12 * y' + ((5 * doy' + 2) / 153 : Nat) ∨
      12 * y + ((5 * doy + 2) / 153 : Nat) = 12 * y' + ((5 * doy' + 2) / 153 : Nat) ∧
          (fromMarch y doy).2.2 < (fromMarch y' doy').2.2 := by
    rcases less with year | ⟨rfl, day⟩
    · left
      omega
    · rcases Nat.lt_or_eq_of_le (show (5 * doy + 2) / 153 ≤
        (5 * doy' + 2) / 153 by omega) with month | month
      · left
        omega
      · refine .inr ⟨by rw [month], ?_⟩
        change doy - monthStart ((5 * doy + 2) / 153) + 1 <
          doy' - monthStart ((5 * doy' + 2) / 153) + 1
        rw [month] at begun ⊢
        omega
  simp only [Earlier]
  omega

theorem civil_lt (less : d < d') : Earlier (civil d) (civil d') := by
  rw [civil_march, civil_march]
  exact fromMarch_lt (march_day d) (march_day d') (march_lt less)

/-- Months and days have at most two digits. -/
theorem civil_fits (d : Int) : (civil d).2.1 < 10 ^ 2 ∧ (civil d).2.2 < 10 ^ 2 := by
  have inside := march_day d
  rw [civil_march]
  simp only [fromMarch, monthStart]
  constructor
  · split <;> omega
  · omega

/-- The years of datetimes have at most four. -/
theorem civil_year (first : -719162 ≤ d) (last : d ≤ 2932896) :
    1 ≤ (civil d).1 ∧ (civil d).1 ≤ 9999 := by
  have begins : civil (-719162) = (1, 1, 1) := by decide
  have ends : civil 2932896 = (9999, 12, 31) := by decide
  constructor
  · rcases first.lt_or_eq with later | rfl
    · have order := civil_lt later
      rw [begins] at order
      simp only [Earlier] at order
      omega
    · rw [begins]
  · rcases last.lt_or_eq with earlier | rfl
    · have order := civil_lt earlier
      rw [ends] at order
      simp only [Earlier] at order
      omega
    · rw [ends]

end

/-! ### Texts -/

section
variable {m n width : Nat} {a b t : Time}

theorem pad_digits (fits : n < 10 ^ width) (wide : 0 < width) :
    (pad width n).toList = digits width n := by
  rw [pad, String.toList_ofList, padded fits wide]

/-- What comes after the seconds. -/
def fraction (micros : Nat) : List Char := if micros = 0 then "+00:00".toList
      else '.' :: (digits 6 micros ++ "+00:00".toList)

theorem fraction_lt (left : m < 10 ^ 6) (right : n < 10 ^ 6) (less : m < n) :
    fraction m < fraction n := by
  have there : n ≠ 0 := by omega
  rw [fraction, fraction, if_neg there]
  split
  · -- the sign is before the point
    exact List.cons_lt_cons_iff.mpr (.inl (by decide))
  · exact List.cons_lt_cons_iff.mpr (.inr ⟨rfl, (digits_lt left right).mpr (.inl less)⟩)

/-- The characters of a date, a time of day and what comes after the seconds. -/
def written (date : Int × Nat × Nat) (seconds micros : Nat) : List Char :=
  digits 4 date.1.toNat ++ '-' :: (digits 2 date.2.1 ++ '-' :: (digits 2 date.2.2 ++ 'T' ::
    (digits 2 (seconds / 3600) ++ ':' :: (digits 2 (seconds / 60 % 60) ++ ':' ::
      (digits 2 (seconds % 60) ++ fraction micros)))))

def dayOf (t : Time) : Int := t / (86400 * second)

def secondOf (t : Time) : Nat := (t % (86400 * second) / second).toNat

def microOf (t : Time) : Nat := (t % second).toNat

theorem datetime_fields (datetime : Datetime t) :
    (1 ≤ (civil (dayOf t)).1 ∧ (civil (dayOf t)).1 ≤ 9999) ∧ secondOf t < 86400 ∧
    microOf t < 10 ^ 6 := by
  have first : (-62135596800 * 1000000 : Int) ≤ t := datetime.1
  have last : (253402300800 * 1000000 : Int) > t := datetime.2
  have days : -719162 ≤ dayOf t ∧ dayOf t ≤ 2932896 := by
    simp only [dayOf, second]
    omega
  refine ⟨civil_year days.1 days.2, ?_, ?_⟩
  · simp only [secondOf, second]
    omega
  · simp only [microOf, second]
    omega

/-- The day decides before the second, and that before the microsecond. -/
theorem fields_lt (less : a < b) : dayOf a < dayOf b ∨ dayOf a = dayOf b ∧
    (secondOf a < secondOf b ∨ secondOf a = secondOf b ∧ microOf a < microOf b) := by
  have less : (0 : Int) < b - a := sub_pos.mpr less
  simp only [dayOf, secondOf, microOf, second]
  omega

theorem isoformat_written (datetime : Datetime t) :
    (isoformat t).toList = written (civil (dayOf t)) (secondOf t) (microOf t) := by
  obtain ⟨⟨-, year⟩, seconds, micros⟩ := datetime_fields datetime
  obtain ⟨month, day⟩ := civil_fits (dayOf t)
  have digit : (if microOf t = 0 then "" else "." ++ pad 6 (microOf t)).toList ++ "+00:00".toList =
      fraction (microOf t) := by
    rw [fraction]
    split
    · rfl
    · rw [String.toList_append, pad_digits micros (by decide)]
      rfl
  have wide : 0 < 2 := by decide
  have text : isoformat t = pad 4 (civil (dayOf t)).1.toNat ++ "-" ++ pad 2 (civil (dayOf t)).2.1 ++
    "-" ++ pad 2 (civil (dayOf t)).2.2 ++ "T" ++
      pad 2 (secondOf t / 3600) ++ ":" ++ pad 2 (secondOf t / 60 % 60) ++
        ":" ++ pad 2 (secondOf t % 60) ++
      (if microOf t = 0 then "" else "." ++ pad 6 (microOf t)) ++ "+00:00" := rfl
  rw [text]
  simp only [String.toList_append]
  rw [pad_digits (by omega) (by decide), pad_digits month wide, pad_digits day wide,
    pad_digits (by omega) wide, pad_digits (by omega) wide,
    pad_digits (by omega) wide, List.append_assoc, digit]
  simp only [List.append_assoc, written]
  rfl

theorem cons_lt (c : Char) {s s' : List Char} : c :: s < c :: s' ↔ s < s' := by
  rw [List.cons_lt_cons_iff, or_iff_right (lt_irrefl c), and_iff_right rfl]

theorem clock_lt {s s' : Nat} (less : s < s') : s / 3600 < s' / 3600 ∨ s / 3600 = s' / 3600 ∧
    (s / 60 % 60 < s' / 60 % 60 ∨ s / 60 % 60 = s' / 60 % 60 ∧ s % 60 < s' % 60) := by
  omega

/-- The date decides before the time of day, and that before what comes after. -/
theorem written_lt {date date' : Int × Nat × Nat} {s s' : Nat}
    (years : 0 ≤ date.1 ∧ date.1 ≤ 9999 ∧ 0 ≤ date'.1 ∧ date'.1 ≤ 9999)
    (months : date.2.1 < 10 ^ 2 ∧ date'.2.1 < 10 ^ 2)
    (days : date.2.2 < 10 ^ 2 ∧ date'.2.2 < 10 ^ 2) (inside : s < 86400 ∧ s' < 86400)
    (micros : m < 10 ^ 6 ∧ n < 10 ^ 6)
    (less : Earlier date date' ∨ date = date' ∧ (s < s' ∨ s = s' ∧ m < n)) :
    written date s m < written date' s' n := by
  rw [written, written, digits_lt (by omega) (by omega), cons_lt, digits_lt months.1 months.2,
    cons_lt, digits_lt days.1 days.2, cons_lt,
    digits_lt (by omega) (by omega), cons_lt, digits_lt (by omega) (by omega), cons_lt,
      digits_lt (by omega) (by omega)]
  rcases less with date | ⟨rfl, seconds | ⟨rfl, later⟩⟩
  · rcases date with year | ⟨year, month | ⟨month, day⟩⟩
    · exact .inl (by omega)
    · exact .inr ⟨by omega, .inl month⟩
    · exact .inr ⟨by omega, .inr ⟨month, .inl day⟩⟩
  · refine .inr ⟨rfl, .inr ⟨rfl, .inr ⟨rfl, ?_⟩⟩⟩
    rcases clock_lt seconds with hour | ⟨hour, minute | ⟨minute, seconds⟩⟩
    · exact .inl hour
    · exact .inr ⟨hour, .inl minute⟩
    · exact .inr ⟨hour, .inr ⟨minute, .inl seconds⟩⟩
  · exact .inr ⟨rfl, .inr ⟨rfl,
      .inr ⟨rfl, .inr ⟨rfl, .inr ⟨rfl, .inr ⟨rfl, fraction_lt micros.1 micros.2 later⟩⟩⟩⟩⟩⟩

end

/-- The texts of datetimes are in the order of the times, with microseconds and without. -/
theorem isoformat_lt {a b : Time} (left : Datetime a) (right : Datetime b) (less : a < b) :
    isoformat a < isoformat b := by
  rw [String.lt_iff_toList_lt, isoformat_written left, isoformat_written right]
  obtain ⟨year, seconds, micros⟩ := datetime_fields left
  obtain ⟨year', seconds', micros'⟩ := datetime_fields right
  obtain ⟨month, day⟩ := civil_fits (dayOf a)
  obtain ⟨month', day'⟩ := civil_fits (dayOf b)
  apply written_lt (by omega) ⟨month, month'⟩ ⟨day, day'⟩ ⟨seconds, seconds'⟩ ⟨micros, micros'⟩
  rcases fields_lt less with days | ⟨same, rest⟩
  · exact .inl (civil_lt days)
  · exact .inr ⟨congrArg civil same, rest⟩

/-- And so it is decided by the texts which of two is earlier. -/
theorem isoformat_le {a b : Time} (left : Datetime a) (right : Datetime b) :
    isoformat a ≤ isoformat b ↔ a ≤ b := by
  constructor
  · intro ordered
    rcases Int.lt_or_le b a with later | earlier
    · exact absurd ordered (not_le_of_gt (isoformat_lt right left later))
    · exact earlier
  · intro earlier
    rcases Int.lt_or_eq_of_le earlier with less | rfl
    · exact le_of_lt (isoformat_lt left right less)
    · exact le_refl _

end WiseOrder.Python
