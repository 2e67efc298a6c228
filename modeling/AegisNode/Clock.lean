import AegisNode.Text

/-!
Clock readings and durations of both runtimes: chrono's bounded `TimeDelta`, Go's
wrapping `time.Duration`, the ISO-8601 durations both policy engines read, and
Go's `time.Parse` for RFC 3339. Instants and durations are whole nanoseconds, and
instants count from the Unix epoch.
-/
namespace AegisNode.Clock
open Text

def second : Int := 1000000000
def minute : Int := 60*second
def hour : Int := 60*minute
def day : Int := 24*hour

/-- What ends a Rust call without a result. -/
inductive Panic where
  | TimeDeltaOutOfBounds
  | SequenceOverflow
  | DateOutOfRange
  deriving DecidableEq,Repr

/-- The result of Rust code that may panic. -/
abbrev Checked := Except Panic

/-- `u64::saturating_add(1)`. -/
def succSaturating (n : UInt64) : UInt64 := if n.toNat+1 = 2^64 then n else n+1

/-- The third-party `chrono` crate: `str::parse::<DateTime<Utc>>`,
    `to_rfc3339_opts(Nanos,true)` and `to_rfc3339`. -/
class Chrono where
  parse : String → Option Int
  rfc3339Nanos : Int → String
  rfc3339 : Int → String

/-! ### chrono durations -/

/-- chrono keeps a `TimeDelta` within `i64::MAX` milliseconds of zero. -/
def deltaLimit : Int := (2^63-1)*1000000

def delta? (span : Int) : Option Int :=
  if -deltaLimit ≤ span ∧ span ≤ deltaLimit then some span else none

/-- `Duration::days` and its siblings panic where the `try_` forms fail. -/
def units (count : Int) (unit : Int) : Checked Int :=
  match delta? (count*unit) with
  | some span => .ok span
  | none => .error .TimeDeltaOutOfBounds

/-- `TimeDelta::checked_add`. -/
def checkedAdd (left right : Int) : Option Int := delta? (left+right)

/-! ### Go durations -/

/-- The value two's complement arithmetic on `int64` keeps. -/
def wrap64 (n : Int) : Int := Int.bmod n (2^64)

def maxDuration : Int := 2^63-1
def minDuration : Int := -2^63

/-- `time.Time.Sub` saturates. -/
def goSub (left right : Int) : Int := max minDuration (min maxDuration (left-right))

/-- The zero `time.Time`, January 1 of year 1. -/
def zeroTime : Int := -719162*day

/-! ### ISO-8601 durations -/

def isUnit (c : Char) : Bool := c = 'H' || c = 'M' || c = 'S'

/-- The pieces of a time part, each ended by the next unit letter, and what
    follows the last one. -/
def unitPieces : List Char → List (List Char × Char) × List Char
  | [] => ([],[])
  | c :: rest =>
    if isUnit c then (([],c) :: (unitPieces rest).1,(unitPieces rest).2)
    else match unitPieces rest with
      | ([],tail) => ([],c :: tail)
      | ((digits,unit) :: more,tail) => ((c :: digits,unit) :: more,tail)

def unitSpan (unit : Char) : Int :=
  if unit = 'H' then hour else if unit = 'M' then minute else second

/-- A date part and a time part behind the `P`; a `T` with nothing after it is
    malformed. -/
def isoParts (s : String) : Option (List Char × List Char) :=
  match s.toList with
  | 'P' :: rest =>
    match splitOnce ['T'] rest with
    | some (_,[]) => none
    | some parts => some parts
    | none => some (rest,[])
  | _ => none

/-- The text before a final `D`. -/
def stripDays (date : List Char) : Option (List Char) :=
  if date.getLast? = some 'D' then some date.dropLast else none

/-- The loop of `parse_iso8601_duration` over the time part. -/
def timeLoop (total : Int) : List (List Char × Char) → List Char → Checked (Option Int)
  | [],tail => .ok (if tail = [] then some total else none)
  | (digits,unit) :: more,tail =>
    match parseI64 digits with
    | none => .ok none
    | some n =>
      if n < 0 then .ok none
      else match units n (unitSpan unit) with
        | .error panic => .error panic
        | .ok increment =>
          match checkedAdd total increment with
          | none => .ok none
          | some total => timeLoop total more tail

/-- Rust's `parse_iso8601_duration`. -/
def parseIso8601Duration (s : String) : Checked (Option Int) :=
  match isoParts s with
  | none => .ok none
  | some (date,time) =>
    if date = [] then timeLoop 0 (unitPieces time).1 (unitPieces time).2
    else match (stripDays date).bind parseI64 with
      | none => .ok none
      | some n =>
        if n < 0 then .ok none
        else match units n day with
          | .error panic => .error panic
          | .ok days =>
            match checkedAdd 0 days with
            | none => .ok none
            | some total => timeLoop total (unitPieces time).1 (unitPieces time).2

/-- The loop of `parseISO8601Duration` over the time part; `int64` wraps around. -/
def goTimeLoop (total : Int) : List (List Char × Char) → List Char → Option Int
  | [],tail => if tail = [] then some total else none
  | (digits,unit) :: more,tail =>
    match parseI64 digits with
    | none => none
    | some n => if n < 0 then none else goTimeLoop (wrap64 (total+wrap64 (n*unitSpan unit))) more tail

/-- Go's `parseISO8601Duration`. -/
def parseISO8601Duration (s : String) : Option Int :=
  match isoParts s with
  | none => none
  | some (date,time) =>
    if date = [] then goTimeLoop 0 (unitPieces time).1 (unitPieces time).2
    else match (stripDays date).bind parseI64 with
      | none => none
      | some n =>
        if n < 0 then none
        else goTimeLoop (wrap64 (wrap64 (n*24)*hour)) (unitPieces time).1 (unitPieces time).2

/-! ### What both parsers read

The sum of the components up to the first fault, in unbounded arithmetic, and
whether there was none.
-/

def readTime (total : Int) : List (List Char × Char) → List Char → Int × Bool
  | [],tail => (total,tail = [])
  | (digits,unit) :: more,tail =>
    match parseI64 digits with
    | none => (total,false)
    | some n => if n < 0 then (total,false) else readTime (total+n*unitSpan unit) more tail

def isoRead (s : String) : Int × Bool :=
  match isoParts s with
  | none => (0,false)
  | some (date,time) =>
    if date = [] then readTime 0 (unitPieces time).1 (unitPieces time).2
    else match (stripDays date).bind parseI64 with
      | none => (0,false)
      | some n => if n < 0 then (0,false) else readTime (n*day) (unitPieces time).1 (unitPieces time).2

theorem unitSpan_pos (unit : Char) : 0 < unitSpan unit := by
  unfold unitSpan hour minute second
  split_ifs <;> decide

theorem le_readTime (pieces : List (List Char × Char)) (tail : List Char) :
    ∀ total, total ≤ (readTime total pieces tail).1 := by
  induction pieces with
  | nil => exact fun total => le_refl total
  | cons piece more ih =>
    intro total
    rw [readTime]
    split
    · exact le_refl total
    · rename_i n read
      split
      · exact le_refl total
      · have step : 0 ≤ n*unitSpan piece.2 := mul_nonneg (by omega) (le_of_lt (unitSpan_pos _))
        have later := ih (total+n*unitSpan piece.2)
        omega

theorem wrap64_eq {n : Int} (low : -2^63 ≤ n) (high : n ≤ 2^63-1) : wrap64 n = n := by
  unfold wrap64
  rw [Int.bmod_eq_of_le] <;> omega

theorem units_eq {count : Int} {unit : Int} (low : 0 ≤ count*unit) (high : count*unit ≤ maxDuration) :
    units count unit = .ok (count*unit) := by
  have fits : delta? (count*unit) = some (count*unit) := by
    unfold maxDuration at high
    rw [delta?,if_pos (by unfold deltaLimit; omega)]
  simp [units,fits]

theorem checkedAdd_eq (left right : Int) (low : 0 ≤ left+right) (high : left+right ≤ maxDuration) :
    checkedAdd left right = some (left+right) := by
  unfold maxDuration at high
  rw [checkedAdd,delta?,if_pos (by unfold deltaLimit; omega)]

/-- Within `int64` nanoseconds both loops return the exact sum. -/
theorem timeLoop_agree (pieces : List (List Char × Char)) (tail : List Char) :
    ∀ total : Int, 0 ≤ total → (readTime total pieces tail).1 ≤ maxDuration →
      timeLoop total pieces tail =
        .ok (if (readTime total pieces tail).2 then some (readTime total pieces tail).1 else none) ∧
      goTimeLoop total pieces tail =
        if (readTime total pieces tail).2 then some (readTime total pieces tail).1 else none := by
  induction pieces with
  | nil =>
    intro total _ _
    simp [timeLoop,goTimeLoop,readTime]
  | cons piece more ih =>
    obtain ⟨digits,unit⟩ := piece
    intro total positive fits
    cases read : parseI64 digits with
    | none => simp [timeLoop,goTimeLoop,readTime,read]
    | some n =>
      by_cases negative : n < 0
      · simp [timeLoop,goTimeLoop,readTime,read,negative]
      · have step : 0 ≤ n*unitSpan unit := mul_nonneg (by omega) (le_of_lt (unitSpan_pos _))
        simp only [readTime,read,if_neg negative] at fits ⊢
        have grows := le_readTime more tail (total+n*unitSpan unit)
        have high : total+n*unitSpan unit ≤ maxDuration := grows.trans fits
        have later := ih (total+n*unitSpan unit) (by omega) fits
        simp only [timeLoop,goTimeLoop,read,if_neg negative,
          units_eq step (by omega),checkedAdd_eq total _ (by omega) high]
        unfold maxDuration at high
        rw [wrap64_eq (n := n*unitSpan unit) (by omega) (by omega),wrap64_eq (by omega) high]
        exact later

/-- Both parsers read the same duration when its components sum to at most
    `int64` nanoseconds. -/
theorem isoRead_agree {s : String} (fits : (isoRead s).1 ≤ maxDuration) :
    parseIso8601Duration s = .ok (if (isoRead s).2 then some (isoRead s).1 else none) ∧
      parseISO8601Duration s = if (isoRead s).2 then some (isoRead s).1 else none := by
  unfold isoRead parseIso8601Duration parseISO8601Duration at *
  cases parts : isoParts s with
  | none => simp
  | some halves =>
    obtain ⟨date,time⟩ := halves
    by_cases absent : date = []
    · simp only [parts,if_pos absent] at fits ⊢
      exact timeLoop_agree _ _ _ (le_refl 0) fits
    · cases read : (stripDays date).bind parseI64 with
      | none => simp [absent,read]
      | some n =>
        by_cases negative : n < 0
        · simp [absent,read,negative]
        · simp only [parts,if_neg absent,read,if_neg negative] at fits ⊢
          have step : 0 ≤ n*day := mul_nonneg (by omega) (by decide)
          have high : n*day ≤ maxDuration := (le_readTime _ _ _).trans fits
          have sum := checkedAdd_eq 0 (n*day) (by omega) (by omega)
          rw [zero_add] at sum
          have spread : n*24*hour = n*day := by unfold day; ring
          have days : wrap64 (wrap64 (n*24)*hour) = n*day := by
            unfold maxDuration at high
            rw [wrap64_eq (n := n*24) (by unfold day hour minute second at *; omega)
              (by unfold day hour minute second at *; omega),spread]
            exact wrap64_eq (by omega) high
          simp only [units_eq step high,sum,days]
          exact timeLoop_agree _ _ _ step fits

theorem isoRead_nonneg (s : String) : 0 ≤ (isoRead s).1 := by
  unfold isoRead
  split
  · exact le_refl 0
  · split_ifs
    · exact le_readTime _ _ 0
    · split
      · exact le_refl 0
      · split_ifs
        · exact le_refl 0
        · rename_i n _ negative
          have step : 0 ≤ n*day := mul_nonneg (by omega) (by decide)
          exact step.trans (le_readTime _ _ _)

/-- Saturation does not change a comparison with a duration `int64` can hold. -/
theorem goSub_le (left right : Int) {limit : Int} (low : 0 ≤ limit) (high : limit ≤ maxDuration) :
    limit ≤ goSub left right ↔ limit ≤ left-right := by
  unfold goSub minDuration maxDuration at *
  omega

example : parseIso8601Duration "P1DT12H" = .ok (some (36*hour)) := by decide
example : parseISO8601Duration "PT1H30M" = some (90*minute) := by decide
example : parseIso8601Duration "P1DT" = .ok none := by decide

/-! ### `time.Parse` for RFC 3339 -/

/-- Two digits within a range, and the rest of the text. -/
def twoDigits (low high : Nat) (text : List Char) : Option (Nat × List Char) :=
  match text with
  | a :: b :: rest =>
    match decimal? [a,b] with
    | some n => if low ≤ n ∧ n ≤ high then some (n,rest) else none
    | none => none
  | _ => none

/-- Hours may be written with one digit. -/
def hourDigits (text : List Char) : Option (Nat × List Char) :=
  match text with
  | a :: b :: rest =>
    match decimal? [a,b],decimal? [a] with
    | some n,_ => if n < 24 then some (n,rest) else none
    | none,some n => some (n,b :: rest)
    | none,none => none
  | _ => none

def skip (c : Char) (text : List Char) : Option (List Char) :=
  match text with
  | head :: rest => if head = c then some rest else none
  | [] => none

/-- An optional fraction behind `.` or `,`, cut after nine digits. -/
def fraction (text : List Char) : Nat × List Char :=
  match text with
  | mark :: d :: rest =>
    if (mark = '.' || mark = ',') && (digit? d).isSome then
      let digits := (d :: rest).takeWhile (fun c => (digit? c).isSome)
      let kept := digits.take 9
      (((decimal? kept).getD 0)*10^(9-kept.length),(d :: rest).drop digits.length)
    else (0,text)
  | _ => (0,text)

/-- The zone: `Z`, or a sign, two digits, a colon and two digits. -/
def zone (text : List Char) : Option Int :=
  match text with
  | ['Z'] => some 0
  | [sign,a,b,':',c,d] =>
    match decimal? [a,b],decimal? [c,d] with
    | some h,some m =>
      if h ≤ 24 ∧ m ≤ 60 then
        if sign = '+' then some (h*hour+m*minute)
        else if sign = '-' then some (-(h*hour+m*minute))
        else none
      else none
    | _,_ => none
  | _ => none

def isLeap (year : Nat) : Bool := year%4 = 0 && (year%100 ≠ 0 || year%400 = 0)

def daysIn (month year : Nat) : Nat :=
  if month = 2 then (if isLeap year then 29 else 28)
  else if month = 4 ∨ month = 6 ∨ month = 9 ∨ month = 11 then 30 else 31

/-- Days from January 1, 1970 to the first day of a year. -/
def yearDays (year : Nat) : Int :=
  let before : Int := year-1
  365*before+before/4-before/100+before/400-719162

def dateDays (year month d : Nat) : Int :=
  yearDays year+((List.range (month-1)).map (fun m => (daysIn (m+1) year : Int))).sum+(d-1)

/-- `time.Parse(time.RFC3339,value)`. -/
def goParseRFC3339 (value : String) : Option Int := do
  let text := value.toList
  let year ← decimal? (text.take 4)
  guard (4 ≤ text.length)
  let text ← skip '-' (text.drop 4)
  let (month,text) ← twoDigits 1 12 text
  let text ← skip '-' text
  let (d,text) ← twoDigits 0 99 text
  let text ← skip 'T' text
  let (h,text) ← hourDigits text
  let text ← skip ':' text
  let (m,text) ← twoDigits 0 59 text
  let text ← skip ':' text
  let (s,text) ← twoDigits 0 59 text
  let (nanos,text) := fraction text
  let offset ← zone text
  guard (1 ≤ d ∧ d ≤ daysIn month year)
  pure (dateDays year month d*day+h*hour+m*minute+s*second+nanos-offset)

/-- A `chrono` for runs at the epoch: it reads RFC 3339 strictly and writes the
    epoch. -/
@[reducible] def epochChrono : Chrono where
  parse := goParseRFC3339
  rfc3339Nanos := fun _ => "1970-01-01T00:00:00.000000000Z"
  rfc3339 := fun _ => "1970-01-01T00:00:00+00:00"

example : goParseRFC3339 "1970-01-02T00:00:00Z" = some day := by decide
example : goParseRFC3339 "0001-01-01T00:00:00Z" = some zeroTime := by decide

end AegisNode.Clock
