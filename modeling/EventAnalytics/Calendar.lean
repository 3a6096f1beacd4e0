import EventAnalytics.Backend

/-! Dates of the proleptic Gregorian calendar, numbered from 1970-01-01. -/
namespace EventAnalytics

abbrev Day := Int

/-- `datetime.now(UTC).date()`, for a clock in milliseconds. -/
def dateOf (ms : Nat) : Day := dayOf ms

/-- `datetime(d.year, d.month, d.day, tzinfo=UTC)`, in milliseconds. -/
def midnight (d : Day) : Int := d * 86400000

theorem midnight_le {ms : Nat} {d : Int} : midnight d ≤ (ms : Int) ↔ d ≤ (dayOf ms : Int) := by
  simp only [midnight, dayOf]
  omega

theorem between_midnights {ms : Nat} {a b : Int} :
    midnight a ≤ (ms : Int) ∧ (ms : Int) < midnight (b + 1) ↔ a ≤ dateOf ms ∧ dateOf ms ≤ b := by
  have hstop : (ms : Int) < midnight (b + 1) ↔ (dayOf ms : Int) ≤ b := by
    rw [← not_le, midnight_le]
    omega
  exact and_congr midnight_le hstop

/-- `date.max`, 9999-12-31. -/
def dateMax : Day := 2932896

/-- `d + timedelta(days=n)`. -/
def addDays (d : Day) (n : Nat) : Except Exn Day :=
  if d + n ≤ dateMax then .ok (d + n) else .error .overflowError

structure CivilDate where
  year : Int
  month : Int
  day : Int
  deriving DecidableEq, Repr

/-- Years start in March here, so that the leap day comes last; an era is 400
years of 146097 days. -/
def civil (d : Day) : CivilDate :=
  let z := d + 719468
  let era := z / 146097
  let dayOfEra := z - era * 146097
  let yearOfEra := (dayOfEra - dayOfEra / 1460 + dayOfEra / 36524 - dayOfEra / 146096) / 365
  let dayOfYear := dayOfEra - (365 * yearOfEra + yearOfEra / 4 - yearOfEra / 100)
  let monthIndex := (5 * dayOfYear + 2) / 153
  let month := if monthIndex < 10 then monthIndex + 3 else monthIndex - 9
  { year := yearOfEra + era * 400 + if month ≤ 2 then 1 else 0
    month := month
    day := dayOfYear - (153 * monthIndex + 2) / 5 + 1 }

/-- `int(d.strftime("%Y%m%d"))`. -/
def yyyymmdd (d : Day) : Int :=
  let c := civil d
  c.year * 10000 + c.month * 100 + c.day

example : [0, 59, 11016, 20453, dateMax].map yyyymmdd =
    [19700101, 19700301, 20000229, 20251231, 99991231] := by
  decide

/-- The year is the number of days by the mean length of a year, to within a year or
so, and month and day come after it. -/
theorem yyyymmdd_near (d : Int) :
    ∃ year : Int, -40000 ≤ 400 * (d + 719468) - 146097 * year ∧
      400 * (d + 719468) - 146097 * year ≤ 190000 ∧
      10000 * year - 3000 ≤ yyyymmdd d ∧ yyyymmdd d ≤ 10000 * year + 20000 := by
  obtain ⟨z, hz⟩ : ∃ z : Int, z = d + 719468 := ⟨_, rfl⟩
  obtain ⟨era, hera⟩ : ∃ era : Int, era = z / 146097 := ⟨_, rfl⟩
  obtain ⟨doe, hdoe⟩ : ∃ doe : Int, doe = z - era * 146097 := ⟨_, rfl⟩
  obtain ⟨yoe, hyoe⟩ : ∃ yoe : Int,
    yoe = (doe - doe / 1460 + doe / 36524 - doe / 146096) / 365 := ⟨_, rfl⟩
  obtain ⟨doy, hdoy⟩ : ∃ doy : Int, doy = doe - (365 * yoe + yoe / 4 - yoe / 100) := ⟨_, rfl⟩
  obtain ⟨mi, hmi⟩ : ∃ mi : Int, mi = (5 * doy + 2) / 153 := ⟨_, rfl⟩
  have hvalue : yyyymmdd d =
      (yoe + era * 400 + if (if mi < 10 then mi + 3 else mi - 9) ≤ 2 then 1 else 0) * 10000 +
        (if mi < 10 then mi + 3 else mi - 9) * 100 + (doy - (153 * mi + 2) / 5 + 1) := by
    subst hmi hdoy hyoe hdoe hera hz
    rfl
  have hyear : 0 ≤ yoe ∧ yoe ≤ 400 ∧ 365 * yoe ≤ doe + 5 ∧ doe ≤ 365 * yoe + 470 := by omega
  have hday : -110 ≤ doy ∧ doy ≤ 480 := by omega
  have hmonth : -5 ≤ mi ∧ mi ≤ 16 ∧ 0 ≤ doy - (153 * mi + 2) / 5 + 1 ∧
      doy - (153 * mi + 2) / 5 + 1 ≤ 40 := by omega
  refine ⟨yoe + era * 400, by omega, by omega, ?_, ?_⟩
  · rw [hvalue]
    split <;> split <;> omega
  · rw [hvalue]
    split <;> split <;> omega

/-- No date within the eight days after a date, nor any before it, is a million ahead. -/
theorem yyyymmdd_lt {d e : Int} (hde : d ≤ e + 8) : yyyymmdd d < yyyymmdd e + 1000000 := by
  obtain ⟨year, hlow, -, -, hle⟩ := yyyymmdd_near d
  obtain ⟨year', -, hhigh, hge, -⟩ := yyyymmdd_near e
  omega

theorem yyyymmdd_dateOf_lt {s t : Nat} (hst : s ≤ t) {m n : Int} (hmn : n ≤ m + 8) :
    yyyymmdd (dateOf s - m) < yyyymmdd (dateOf t - n) + 1000000 := by
  have hday : ((s / 86400000 : Nat) : Int) ≤ (t / 86400000 : Nat) :=
    Int.ofNat_le.mpr (Nat.div_le_div_right hst)
  have hlt : ((s / 86400000 : Nat) : Int) - m ≤ (t / 86400000 : Nat) - n + 8 := by omega
  exact yyyymmdd_lt hlt

end EventAnalytics
