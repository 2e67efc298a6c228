import AegisNode.Reference

/-!
The dates of the provenance files and of the model list: seconds since the Unix epoch as
a date and a time of the proleptic Gregorian calendar.
-/
namespace AegisNode.Calendar
open Reference

structure DateTime where
  year : Int
  month : Nat
  day : Nat
  hour : Int
  minute : Int
  second : Int
  deriving DecidableEq,Repr

/-! ### The conversion -/

/-- Arithmetic that panics on overflow. -/
def i64? (n : Int) : Option Int := if -2^63 ≤ n ∧ n < 2^63 then some n else none
def u64? (n : Nat) : Option Nat := if n < 2^64 then some n else none
def sub? (left right : Nat) : Option Nat := if right ≤ left then some (left-right) else none

/-- `as u64` and `as i64` wrap. -/
def asU64 (n : Int) : Nat := (n%2^64).toNat
def asI64 (n : Nat) : Int := Int.bmod n (2^64)

def secondsPerDay : Int := 86400

def yearOfEra (doe : Nat) : Option Nat := do
  let commonDays ← sub? doe (doe/1460)
  let centuryDays ← u64? (commonDays+doe/36524)
  let yearDays ← sub? centuryDays (doe/146096)
  return yearDays/365

def dayOfYear (doe yoe : Nat) : Option Nat := do
  let julianDays ← u64? (365*yoe+yoe/4)
  let before ← sub? julianDays (yoe/100)
  sub? doe before

def monthAndDay (doy : Nat) : Option (Nat × Nat) := do
  let scaled ← u64? (5*doy+2)
  let mp := scaled/153
  let monthDays ← u64? (153*mp+2)
  let rest ← sub? doy (monthDays/5)
  let d ← u64? (rest+1)
  let m ← (if mp < 10 then u64? (mp+3) else sub? mp 9)
  return (m,d)

def eraOf (z : Int) : Option Int := do
  let shifted ← (if 0 ≤ z then some z else i64? (z-146096))
  return shifted.tdiv 146097

def dayOfEra (z era : Int) : Option Nat := do
  let start ← i64? (era*146097)
  let sinceStart ← i64? (z-start)
  return asU64 sinceStart

def civilFromDays (days : Int) : Option (Int × Nat × Nat) := do
  let z ← i64? (days+719468)
  let era ← eraOf z
  let doe ← dayOfEra z era
  let yoe ← yearOfEra doe
  let eraYears ← i64? (era*400)
  let y ← i64? (asI64 yoe+eraYears)
  let doy ← dayOfYear doe yoe
  let (m,d) ← monthAndDay doy
  let y ← (if m ≤ 2 then i64? (y+1) else some y)
  return (y,m,d)

def civilFromUnix (secs : Int64) : Option DateTime := do
  let days := secs.toInt/secondsPerDay
  let timeOfDay := secs.toInt%secondsPerDay
  let hh := timeOfDay.tdiv 3600
  let mm := (timeOfDay.tmod 3600).tdiv 60
  let ss := timeOfDay.tmod 60
  let (y,m,d) ← civilFromDays days
  return ⟨y,m,d,hh,mm,ss⟩

/-- `{y:04}`, the sign within the width. -/
def year04 (year : Int) : String := if year < 0 then "-" ++ padded 3 year.natAbs else padded 4 year.natAbs

def DateTime.rfc3339 (t : DateTime) (nanos : UInt32) : String :=
  year04 t.year ++ "-" ++ padded 2 t.month ++ "-" ++ padded 2 t.day ++ "T" ++ padded 2 t.hour.toNat ++ ":" ++
    padded 2 t.minute.toNat ++ ":" ++ padded 2 t.second.toNat ++ "." ++ padded 3 (nanos.toNat/1000000) ++ "Z"

/-- The function is written out in `pull.rs` and in `models.rs`, with one body. -/
def naiveRfc3339FromUnix (secs : Int64) (nanos : UInt32) : Option String :=
  (civilFromUnix secs).map (·.rfc3339 nanos)

namespace Models
def naiveRfc3339FromUnix (secs : Int64) (nanos : UInt32) : Option String := Calendar.naiveRfc3339FromUnix secs nanos
end Models

/-! ### The calendar -/

def Leap (year : Int) : Prop := year%4 = 0 ∧ (year%100 ≠ 0 ∨ year%400 = 0)

instance (year : Int) : Decidable (Leap year) := inferInstanceAs (Decidable (_ ∧ _))

def monthLength (leap : Bool) : Nat → Nat
  | 2 => if leap then 29 else 28
  | 4 => 30
  | 6 => 30
  | 9 => 30
  | 11 => 30
  | _ => 31

/-- The days of the first months of a year. -/
def daysOfMonths (leap : Bool) : Nat → Nat
  | 0 => 0
  | months+1 => daysOfMonths leap months+monthLength leap (months+1)

/-- January 1 of a year, counted from January 1, 1970. -/
def newYear (year : Int) : Int := 365*(year-1)+(year-1)/4-(year-1)/100+(year-1)/400-719162

structure DateTime.Valid (t : DateTime) : Prop where
  month : 1 ≤ t.month ∧ t.month ≤ 12
  day : 1 ≤ t.day ∧ t.day ≤ monthLength (Leap t.year) t.month
  hour : 0 ≤ t.hour ∧ t.hour < 24
  minute : 0 ≤ t.minute ∧ t.minute < 60
  second : 0 ≤ t.second ∧ t.second < 60

def dayNumber (year : Int) (month day : Nat) : Int := newYear year+daysOfMonths (Leap year) (month-1)+(day-1)

/-- The seconds since the epoch that a date and time denote. -/
def DateTime.instant (t : DateTime) : Int :=
  dayNumber t.year t.month t.day*86400+t.hour*3600+t.minute*60+t.second

theorem newYear_epoch : newYear 1970 = 0 := by decide

theorem newYear_succ (year : Int) : newYear (year+1) = newYear year+365+(if Leap year then 1 else 0) := by
  unfold newYear Leap
  split_ifs with leap
  · omega
  · omega

theorem newYear_mono : Monotone newYear := by
  refine monotone_int_of_le_succ fun year => ?_
  rw [newYear_succ]
  split_ifs
  · omega
  · omega

theorem daysOfMonths_mono (leap : Bool) : Monotone (daysOfMonths leap) :=
  monotone_nat_of_le_succ fun months => by
    rw [daysOfMonths]
    omega

theorem daysOfMonths_year (leap : Bool) : daysOfMonths leap 12 = 365+(if leap then 1 else 0) := by
  cases leap <;> rfl

/-! ### A day has one date -/

section
variable {year year' : Int} {month month' day day' : Nat}

/-- A date lies before the end of its month. -/
theorem day_lt_month (listed : 1 ≤ month) (in_ : 1 ≤ day ∧ day ≤ monthLength (Leap year) month) :
    daysOfMonths (Leap year) (month-1)+(day-1) < daysOfMonths (Leap year) month := by
  obtain ⟨before,rfl⟩ := Nat.exists_eq_add_of_le' listed
  rw [Nat.add_sub_cancel,daysOfMonths]
  omega

/-- A date lies before the next new year. -/
theorem dayNumber_lt (listed : 1 ≤ month ∧ month ≤ 12) (in_ : 1 ≤ day ∧ day ≤ monthLength (Leap year) month) :
    newYear year ≤ dayNumber year month day ∧ dayNumber year month day < newYear (year+1) := by
  have within := day_lt_month listed.1 in_
  have months := daysOfMonths_mono (Leap year) listed.2
  rw [daysOfMonths_year] at months
  simp only [decide_eq_true_eq] at months
  rw [newYear_succ,dayNumber]
  split_ifs at months ⊢
  · omega
  · omega

theorem dayNumber_injective (listed : 1 ≤ month ∧ month ≤ 12) (in_ : 1 ≤ day ∧ day ≤ monthLength (Leap year) month)
    (listed' : 1 ≤ month' ∧ month' ≤ 12) (in' : 1 ≤ day' ∧ day' ≤ monthLength (Leap year') month')
    (same : dayNumber year month day = dayNumber year' month' day') : year = year' ∧ month = month' ∧ day = day' := by
  have bounds := dayNumber_lt listed in_
  have bounds' := dayNumber_lt listed' in'
  have years : year = year' := by
    rcases lt_trichotomy year year' with before | same | after
    · have := newYear_mono (show year+1 ≤ year' by omega)
      omega
    · exact same
    · have := newYear_mono (show year'+1 ≤ year by omega)
      omega
  subst years
  have within := day_lt_month listed.1 in_
  have within' := day_lt_month listed'.1 in'
  unfold dayNumber at same
  have months : month = month' := by
    rcases lt_trichotomy month month' with before | same | after
    · have := daysOfMonths_mono (Leap year) (show month ≤ month'-1 by omega)
      omega
    · exact same
    · have := daysOfMonths_mono (Leap year) (show month' ≤ month-1 by omega)
      omega
  subst months
  omega

end

theorem instant_injective {left right : DateTime} (valid : left.Valid) (valid' : right.Valid)
    (same : left.instant = right.instant) : left = right := by
  have hour := valid.hour
  have minute := valid.minute
  have second := valid.second
  have hour' := valid'.hour
  have minute' := valid'.minute
  have second' := valid'.second
  unfold DateTime.instant at same
  obtain ⟨year,month,day⟩ := dayNumber_injective valid.month valid.day valid'.month valid'.day (by omega)
  cases left
  cases right
  simp only at *
  subst year month day
  simp only [DateTime.mk.injEq,true_and]
  omega

/-! ### The year of an era -/

/-- The days of the first years of an era, each from March to March. -/
def daysOfYears (years : Nat) : Nat := 365*years+years/4-years/100+years/400

/-- The day of the era without the leap days that the division by 365 must not see. -/
def yearDays (doe : Nat) : Nat := doe-doe/1460+doe/36524-doe/146096

theorem yearDays_succ {doe : Nat} (within : doe+1 < 146097) : yearDays doe ≤ yearDays (doe+1) := by
  unfold yearDays
  omega

theorem yearDays_mono {early late : Nat} (ordered : early ≤ late) (within : late < 146097) : yearDays early ≤ yearDays late := by
  induction late,ordered using Nat.le_induction with
  | base => exact le_rfl
  | succ day _ ih => exact (ih (by omega)).trans (yearDays_succ within)

/-- The first and the last day of each year. -/
theorem yearDays_ends : ∀ year < 400,365*year ≤ yearDays (daysOfYears year) ∧
    yearDays (daysOfYears (year+1)-1) < 365*(year+1) := by
  decide +kernel

theorem daysOfYears_succ (era : Int) {years : Nat} (small : years < 400) :
    daysOfYears (years+1) = daysOfYears years+365+(if Leap (years+era*400+1) then 1 else 0) := by
  have leap : Leap (years+era*400+1) ↔ (years+1)%4 = 0 ∧ ((years+1)%100 ≠ 0 ∨ (years+1)%400 = 0) := by
    unfold Leap
    omega
  have table : ∀ years < 400,daysOfYears (years+1) = daysOfYears years+365+
      (if (years+1)%4 = 0 ∧ ((years+1)%100 ≠ 0 ∨ (years+1)%400 = 0) then 1 else 0) := by decide +kernel
  rw [table years small]
  simp only [leap]

theorem daysOfYears_mono : Monotone daysOfYears :=
  monotone_nat_of_le_succ fun years => by
    unfold daysOfYears
    omega

theorem year_of_day {doe : Nat} : ∀ {years : Nat},doe < daysOfYears years →
    ∃ year < years,daysOfYears year ≤ doe ∧ doe < daysOfYears (year+1)
  | 0,within => by simp [daysOfYears] at within
  | years+1,within => by
    by_cases earlier : doe < daysOfYears years
    · obtain ⟨year,before,bounds⟩ := year_of_day earlier
      exact ⟨year,by omega,bounds⟩
    · exact ⟨years,by omega,by omega,within⟩

theorem yearOfEra_bounds {doe : Nat} (within : doe < 146097) :
    yearDays doe/365 < 400 ∧ daysOfYears (yearDays doe/365) ≤ doe ∧ doe < daysOfYears (yearDays doe/365+1) := by
  obtain ⟨year,small,start,finish⟩ := @year_of_day doe 400 within
  have last := daysOfYears_mono (show year+1 ≤ 400 by omega)
  have whole : daysOfYears 400 = 146097 := by decide
  obtain ⟨first,final⟩ := yearDays_ends year small
  have above := yearDays_mono start within
  have below := yearDays_mono (show doe ≤ daysOfYears (year+1)-1 by omega) (by omega)
  have exact_ : yearDays doe/365 = year := Nat.div_eq_of_lt_le (by omega) (by omega)
  rw [exact_]
  exact ⟨small,start,finish⟩

/-! ### The month of a year -/

/-- The month and the day of a day counted from March 1. The years begin in March so that
    February 29 is the last day. -/
def monthDay (doy : Nat) : Nat × Nat :=
  let mp := (5*doy+2)/153
  (if mp < 10 then mp+3 else mp-9,doy-(153*mp+2)/5+1)

theorem monthDay_spec : ∀ doy < 366,∀ leap : Bool,
    1 ≤ (monthDay doy).1 ∧ (monthDay doy).1 ≤ 12 ∧ 1 ≤ (monthDay doy).2 ∧
    ((doy = 365 → (monthDay doy).1 ≤ 2 → leap = true) → (monthDay doy).2 ≤ monthLength leap (monthDay doy).1) ∧
    (doy = 365 → (monthDay doy).1 ≤ 2) ∧
    daysOfMonths leap ((monthDay doy).1-1)+((monthDay doy).2-1) +306 =
      doy+(if (monthDay doy).1 ≤ 2 then 0 else 365+(if leap then 1 else 0)) := by
  decide +kernel

/-- The year and the day of the year of a day, counted from March 1 of the year 0. -/
structure March (days : Int) (era : Int) (yoe doy : Nat) : Prop where
  counts : days+719468 = 146097*era+daysOfYears yoe+doy
  year : yoe < 400
  day : doy < 366
  last : doy = 365 → Leap (yoe+era*400+1)

theorem civil_eq {days : Int} {doe : Nat} (named : ((days+719468)%146097).toNat = doe) :
    civil days = ((yearDays doe/365 : Nat)+(days+719468)/146097*400+
        (if (monthDay (doe-daysOfYears (yearDays doe/365))).1 ≤ 2 then 1 else 0),
      monthDay (doe-daysOfYears (yearDays doe/365))) := by
  have small : yearDays doe/365 < 400 := (yearOfEra_bounds (by omega)).1
  have years : daysOfYears (yearDays doe/365) = 365*(yearDays doe/365)+yearDays doe/365/4-yearDays doe/365/100 := by
    unfold daysOfYears
    omega
  rw [years,civil]
  simp only [named]
  rfl

theorem dayOfYear_lt {doe : Nat} (within : doe < 146097) : doe-daysOfYears (yearDays doe/365) < 366 := by
  obtain ⟨small,start,finish⟩ := yearOfEra_bounds within
  have next := daysOfYears_succ 0 small
  split_ifs at next
  · omega
  · omega

theorem civil_march (days : Int) : ∃ era yoe doy,March days era yoe doy ∧
    civil days = (yoe+era*400+(if (monthDay doy).1 ≤ 2 then 1 else 0),monthDay doy) := by
  generalize named : ((days+719468)%146097).toNat = doe
  have within : doe < 146097 := by omega
  obtain ⟨small,start,finish⟩ := yearOfEra_bounds within
  have next := daysOfYears_succ ((days+719468)/146097) small
  refine ⟨(days+719468)/146097,yearDays doe/365,doe-daysOfYears (yearDays doe/365),⟨?_,small,dayOfYear_lt within,?_⟩,civil_eq named⟩
  · omega
  · intro last
    by_contra common
    rw [if_neg common] at next
    omega

theorem newYear_march (era : Int) {yoe : Nat} (small : yoe < 400) :
    newYear (yoe+era*400+1) = 146097*era+daysOfYears yoe-719162 := by
  unfold newYear daysOfYears
  omega

/-- The date of a day is valid and counts back to the day. -/
theorem civil_spec (days : Int) : (1 ≤ (civil days).2.1 ∧ (civil days).2.1 ≤ 12) ∧
    (1 ≤ (civil days).2.2 ∧ (civil days).2.2 ≤ monthLength (Leap (civil days).1) (civil days).2.1) ∧
    dayNumber (civil days).1 (civil days).2.1 (civil days).2.2 = days := by
  obtain ⟨era,yoe,doy,march,date⟩ := civil_march days
  rw [date]
  dsimp only
  obtain ⟨low,high,first,short,late,counted⟩ := monthDay_spec doy march.day
    (Leap (yoe+era*400+(if (monthDay doy).1 ≤ 2 then 1 else 0)))
  have year := newYear_march era march.year
  have counts := march.counts
  refine ⟨⟨low,high⟩,⟨first,short fun last front => ?_⟩,?_⟩
  · rw [if_pos front]
    exact decide_eq_true (march.last last)
  · unfold dayNumber
    by_cases front : (monthDay doy).1 ≤ 2
    · simp only [if_pos front] at counted ⊢
      omega
    · simp only [if_neg front,add_zero] at counted ⊢
      have next := newYear_succ (yoe+era*400)
      simp only [decide_eq_true_eq] at counted
      split_ifs at counted next
      · omega
      · omega

/-! ### The conversion does not overflow -/

theorem i64?_some {n : Int} (fits : -2^63 ≤ n ∧ n < 2^63) : i64? n = some n := if_pos fits

theorem u64?_some {n : Nat} (fits : n < 2^64) : u64? n = some n := if_pos fits

theorem sub?_some {left right : Nat} (ordered : right ≤ left) : sub? left right = some (left-right) := if_pos ordered

theorem eraOf_eq {z : Int} (fits : -2^62 ≤ z ∧ z < 2^62) : eraOf z = some (z/146097) := by
  have sign : Int.sign 146097 = 1 := rfl
  rw [eraOf]
  split_ifs with nonneg
  · exact congrArg some (Int.tdiv_eq_ediv_of_nonneg nonneg)
  · have shifted : (z-146096).tdiv 146097 = z/146097 := by
      rw [Int.tdiv_eq_ediv,sign]
      split_ifs
      · omega
      · omega
    rw [i64?_some (by omega)]
    exact congrArg some shifted

theorem dayOfEra_eq {z : Int} (fits : -2^62 ≤ z ∧ z < 2^62) : dayOfEra z (z/146097) = some (z%146097).toNat := by
  have start : i64? (z/146097*146097) = some (z/146097*146097) := i64?_some (by omega)
  have sinceStart : i64? (z-z/146097*146097) = some (z-z/146097*146097) := i64?_some (by omega)
  have doe : asU64 (z-z/146097*146097) = (z%146097).toNat := by
    unfold asU64
    omega
  rw [dayOfEra,start,Option.bind_eq_bind,Option.bind_some,sinceStart,Option.bind_some,doe]
  rfl

theorem yearOfEra_eq {doe : Nat} (within : doe < 146097) : yearOfEra doe = some (yearDays doe/365) := by
  rw [yearOfEra,sub?_some (by omega),Option.bind_eq_bind,Option.bind_some,u64?_some (by omega),Option.bind_some,sub?_some (by omega)]
  rfl

theorem dayOfYear_eq {doe yoe : Nat} (small : yoe < 400) (start : daysOfYears yoe ≤ doe) :
    dayOfYear doe yoe = some (doe-daysOfYears yoe) := by
  have years : daysOfYears yoe = 365*yoe+yoe/4-yoe/100 := by
    unfold daysOfYears
    omega
  rw [years] at start ⊢
  rw [dayOfYear,u64?_some (by omega),Option.bind_eq_bind,Option.bind_some,sub?_some (by omega),Option.bind_some,sub?_some start]

theorem monthAndDay_eq {doy : Nat} (within : doy < 366) : monthAndDay doy = some (monthDay doy) := by
  have month : (if (5*doy+2)/153 < 10 then u64? ((5*doy+2)/153+3) else sub? ((5*doy+2)/153) 9) =
      some (if (5*doy+2)/153 < 10 then (5*doy+2)/153+3 else (5*doy+2)/153-9) := by
    split_ifs
    · exact u64?_some (by omega)
    · exact sub?_some (by omega)
  have scaled : u64? (5*doy+2) = some (5*doy+2) := u64?_some (by omega)
  have monthDays : u64? (153*((5*doy+2)/153)+2) = some (153*((5*doy+2)/153)+2) := u64?_some (by omega)
  have rest : sub? doy ((153*((5*doy+2)/153)+2)/5) = some (doy-(153*((5*doy+2)/153)+2)/5) := sub?_some (by omega)
  have day : u64? (doy-(153*((5*doy+2)/153)+2)/5+1) = some (doy-(153*((5*doy+2)/153)+2)/5+1) := u64?_some (by omega)
  simp only [monthAndDay,scaled,monthDays,rest,day,month,Option.bind_eq_bind,Option.bind_some]
  rfl

theorem asI64_small {n : Nat} (small : n < 400) : asI64 n = n := Int.bmod_eq_of_le (by omega) (by omega)

theorem civilFromDays_eq {days : Int} (fits : -2^60 ≤ days ∧ days < 2^60) : civilFromDays days = some (civil days) := by
  have z : i64? (days+719468) = some (days+719468) := i64?_some (by omega)
  have era := eraOf_eq (z := days+719468) (by omega)
  have doe := dayOfEra_eq (z := days+719468) (by omega)
  generalize named : ((days+719468)%146097).toNat = dayOfEra at doe
  have within : dayOfEra < 146097 := by omega
  obtain ⟨small,start,-⟩ := yearOfEra_bounds within
  have eraYears : i64? ((days+719468)/146097*400) = some ((days+719468)/146097*400) := i64?_some (by omega)
  have year := i64?_some (n := (yearDays dayOfEra/365 : Nat)+(days+719468)/146097*400) (by omega)
  unfold civilFromDays
  simp only [Option.bind_eq_bind]
  rw [z,Option.bind_some,era,Option.bind_some,doe,Option.bind_some,yearOfEra_eq within,Option.bind_some,eraYears,Option.bind_some,
    asI64_small small,year,Option.bind_some,dayOfYear_eq small start,Option.bind_some,monthAndDay_eq (dayOfYear_lt within),
    Option.bind_some,civil_eq named]
  split_ifs
  · rw [i64?_some (by omega)]
    rfl
  · rw [add_zero]
    rfl

theorem civilFromUnix_eq (secs : Int64) :
    civilFromUnix secs = some ⟨(civil (secs.toInt/86400)).1,(civil (secs.toInt/86400)).2.1,(civil (secs.toInt/86400)).2.2,
      secs.toInt%86400/3600,secs.toInt%86400%3600/60,secs.toInt%86400%60⟩ := by
  have low := secs.le_toInt
  have high := secs.toInt_lt
  have hour : (secs.toInt%86400).tdiv 3600 = secs.toInt%86400/3600 := Int.tdiv_eq_ediv_of_nonneg (by omega)
  have minute : ((secs.toInt%86400).tmod 3600).tdiv 60 = secs.toInt%86400%3600/60 := by
    rw [Int.tmod_eq_emod_of_nonneg (by omega),Int.tdiv_eq_ediv_of_nonneg (by omega)]
  have second : (secs.toInt%86400).tmod 60 = secs.toInt%86400%60 := Int.tmod_eq_emod_of_nonneg (by omega)
  rw [civilFromUnix,secondsPerDay,hour,minute,second,civilFromDays_eq (by omega)]
  rfl

/-- The conversion gives the one valid date and time of its instant, and both copies render it. -/
theorem calendar_exact (secs : Int64) : ∃ t : DateTime,civilFromUnix secs = some t ∧ t.Valid ∧ t.instant = secs.toInt ∧
    (∀ other : DateTime,other.Valid → other.instant = secs.toInt → other = t) ∧
    ∀ nanos,naiveRfc3339FromUnix secs nanos = some (t.rfc3339 nanos) ∧
      Models.naiveRfc3339FromUnix secs nanos = some (t.rfc3339 nanos) := by
  obtain ⟨month,day,counted⟩ := civil_spec (secs.toInt/86400)
  have valid : DateTime.Valid ⟨(civil (secs.toInt/86400)).1,(civil (secs.toInt/86400)).2.1,(civil (secs.toInt/86400)).2.2,
      secs.toInt%86400/3600,secs.toInt%86400%3600/60,secs.toInt%86400%60⟩ :=
    ⟨month,day,by dsimp only; omega,by dsimp only; omega,by dsimp only; omega⟩
  have denotes : DateTime.instant ⟨(civil (secs.toInt/86400)).1,(civil (secs.toInt/86400)).2.1,(civil (secs.toInt/86400)).2.2,
      secs.toInt%86400/3600,secs.toInt%86400%3600/60,secs.toInt%86400%60⟩ = secs.toInt := by
    rw [DateTime.instant]
    dsimp only
    rw [counted]
    omega
  refine ⟨_,civilFromUnix_eq secs,valid,denotes,fun other valid' same => ?_,fun nanos => ?_⟩
  · exact instant_injective valid' valid (same.trans denotes.symm)
  · rw [Models.naiveRfc3339FromUnix,naiveRfc3339FromUnix,civilFromUnix_eq]
    exact ⟨rfl,rfl⟩

/-- A leap day, and a second before the epoch. -/
theorem calendar_exact_leap : naiveRfc3339FromUnix 1709210096 5000000 = some "2024-02-29T12:34:56.005Z" ∧
    Models.naiveRfc3339FromUnix (-1) 0 = some "1969-12-31T23:59:59.000Z" := by
  obtain ⟨t,-,-,-,unique,copies⟩ := calendar_exact 1709210096
  obtain ⟨t',-,-,-,unique',copies'⟩ := calendar_exact (-1)
  have leap := unique ⟨2024,2,29,12,34,56⟩ ⟨by decide,by decide,by decide,by decide,by decide⟩ (by decide)
  have early := unique' ⟨1969,12,31,23,59,59⟩ ⟨by decide,by decide,by decide,by decide,by decide⟩ (by decide)
  rw [(copies 5000000).1,(copies' 0).2,← leap,← early]
  decide +kernel

end AegisNode.Calendar
