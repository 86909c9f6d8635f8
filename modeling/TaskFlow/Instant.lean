import TaskFlow.Text

/-!
# Instants and durations

Points in time on the proleptic Gregorian calendar in UTC, to the nanosecond. A leap second is the
sixty-first second of its minute. A length of time is shown exactly, in the largest fitting unit.
-/

namespace TaskFlow

def isLeapYear (year : Int) : Bool :=
  year % 4 == 0 && (year % 100 != 0 || year % 400 == 0)

def daysInMonth (year : Int) (month : Nat) : Nat :=
  if month = 2 then (if isLeapYear year then 29 else 28)
  else if month ∈ [4, 6, 9, 11] then 30
  else 31

/-- Whether fields name a date and a time of day. The calendar is bounded on both sides. -/
def isCalendarTime (year : Int) (month day hour minute second nanos : Nat) : Bool :=
  -262143 ≤ year && year ≤ 262142 && 1 ≤ month && month ≤ 12 && 1 ≤ day &&
    day ≤ daysInMonth year month && hour < 24 && minute < 60 && second ≤ 60 && nanos < 1000000000

/-- A point in time, by its date and its time of day in UTC. -/
structure Instant where
  year : Int
  month : Nat
  day : Nat
  hour : Nat
  minute : Nat
  second : Nat
  nanos : Nat
  valid : isCalendarTime year month day hour minute second nanos = true := by decide
  deriving DecidableEq, Repr

namespace Instant

/-- The first instant of 2024, from which times are counted. -/
def epoch : Instant :=
  { year := 2024, month := 1, day := 1, hour := 0, minute := 0, second := 0, nanos := 0 }

instance : Inhabited Instant := ⟨epoch⟩

/-- A number that grows with time: the fields in a mixed radix, coarsest first. -/
def rank (t : Instant) : Int :=
  ((((((t.year * 13 + t.month) * 32 + t.day) * 24 + t.hour) * 60 + t.minute) * 61 + t.second) *
    1000000000 + t.nanos)

instance : LE Instant := ⟨fun a b => a.rank ≤ b.rank⟩

instance : LT Instant := ⟨fun a b => a.rank < b.rank⟩

instance (a b : Instant) : Decidable (a ≤ b) := inferInstanceAs (Decidable (a.rank ≤ b.rank))

instance (a b : Instant) : Decidable (a < b) := inferInstanceAs (Decidable (a.rank < b.rank))

/-- The instant with the given fields, if they name one. -/
def make? (year : Int) (month day hour minute second nanos : Nat) : Option Instant :=
  if h : isCalendarTime year month day hour minute second nanos = true then
    some { year, month, day, hour, minute, second, nanos, valid := h }
  else none

theorem rank_injective {a b : Instant} (h : a.rank = b.rank) : a = b := by
  obtain ⟨ay, amo, ad, ah, ami, as, an, av⟩ := a
  obtain ⟨yb, bmo, bd, bh, bmi, bs, bn, bv⟩ := b
  have bound : ∀ year month, daysInMonth year month ≤ 31 := by
    intro year month
    simp only [daysInMonth]
    repeat' split
    all_goals omega
  have ha := bound ay amo
  have hb := bound yb bmo
  simp only [isCalendarTime, Bool.and_eq_true, decide_eq_true_eq] at av bv
  simp only [rank] at h
  have hn : an = bn := by omega
  subst hn
  have hs : as = bs := by omega
  subst hs
  have hmi : ami = bmi := by omega
  subst hmi
  have hh : ah = bh := by omega
  subst hh
  have hd : ad = bd := by omega
  subst hd
  have hmo : amo = bmo := by omega
  subst hmo
  have hy : ay = yb := by omega
  subst hy
  rfl

theorem le_trans {a b c : Instant} (h : a ≤ b) (k : b ≤ c) : a ≤ c := Int.le_trans h k

theorem le_antisymm {a b : Instant} (h : a ≤ b) (k : b ≤ a) : a = b :=
  rank_injective (Int.le_antisymm h k)

/-- The date that lies `days` days after the first of March of the year 0, as year, month and day.
Years are taken from March on, so the leap day is the last of its year; 400 years have 146097
days. -/
def dateOfDays (days : Int) : Int × Nat × Nat :=
  let era := days.fdiv 146097
  let dayOfEra := (days - era * 146097).toNat
  let yearOfEra := (dayOfEra - dayOfEra / 1460 + dayOfEra / 36524 - dayOfEra / 146096) / 365
  let dayOfYear := dayOfEra - (365 * yearOfEra + yearOfEra / 4 - yearOfEra / 100)
  let shifted := (5 * dayOfYear + 2) / 153
  let day := dayOfYear - (153 * shifted + 2) / 5 + 1
  let month := if shifted < 10 then shifted + 3 else shifted - 9
  let year := era * 400 + yearOfEra + (if month ≤ 2 then 1 else 0)
  (year, month, day)

/-- The number of days from the first of March of the year 0 to a date. -/
def daysOfDate (year : Int) (month day : Nat) : Int :=
  let y := if month ≤ 2 then year - 1 else year
  let era := y.fdiv 400
  let yearOfEra := y - era * 400
  let shifted : Int := if month ≤ 2 then month + 9 else month - 3
  let dayOfYear := (153 * shifted + 2) / 5 + day - 1
  era * 146097 + (yearOfEra * 365 + yearOfEra / 4 - yearOfEra / 100 + dayOfYear)

/-- The instant that lies a number of minutes, possibly negative, from a minute of a date. -/
def ofMinutes? (year : Int) (month day : Nat) (minutes : Int) (second nanos : Nat) :
    Option Instant :=
  let (y, m, d) := dateOfDays (daysOfDate year month day + minutes.fdiv 1440)
  let rest := (minutes.fmod 1440).toNat
  make? y m d (rest / 60) (rest % 60) second nanos

/-- The instant a number of milliseconds, possibly negative, after the epoch. -/
def ofMillis? (ms : Int) : Option Instant :=
  let rest := (ms.fmod 60000).toNat
  ofMinutes? 2024 1 1 (ms.fdiv 60000) (rest / 1000) (rest % 1000 * 1000000)

end Instant

/-- A length of time. -/
structure Duration where
  nanos : Nat
  deriving DecidableEq, Repr

namespace Duration

def ofMillis (ms : Nat) : Duration := ⟨ms * 1000000⟩

/-- A quotient in decimal without trailing zeros, for a divisor that is the power of ten with
`places` zeros. -/
def renderQuotient (n places : Nat) : List Char :=
  let divisor := Nat.pow 10 places
  let fraction := (Text.padDigits places (n % divisor)).reverse.dropWhile (· = '0')
  Nat.toDigits 10 (n / divisor) ++
    (if n % divisor = 0 then [] else '.' :: fraction.reverse)

/-- A duration in the largest of seconds, milliseconds, microseconds and nanoseconds of which it
has at least one, with its exact fraction. -/
def render (d : Duration) : String :=
  let (places, unit) :=
    if 1000000000 ≤ d.nanos then (9, "s")
    else if 1000000 ≤ d.nanos then (6, "ms")
    else if 1000 ≤ d.nanos then (3, "µs")
    else (0, "ns")
  String.ofList (renderQuotient d.nanos places) ++ unit

end Duration

end TaskFlow
