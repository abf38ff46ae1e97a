import Mathlib.Data.Nat.Digits.Defs
import Mathlib.Algebra.Order.Group.Unbundled.Int
import Mathlib.Algebra.Order.Ring.Rat
import Talos.JavaScript.Number

/-!
# Time values

A JavaScript date is a number of milliseconds since the epoch of at most
8.64e15 in absolute value. `toISOString` renders it in the proleptic Gregorian
calendar; outside the range the method throws, which is `none` here.
-/

namespace JavaScript.Date

def maxTime : ℤ := 8640000000000000

def msPerDay : ℤ := 86400000

/-- Year, month and day of a day number. The year is counted from March within
eras of 400 years, so that the leap day comes last. -/
def civil (days : ℤ) : ℤ × ℤ × ℤ :=
  let shifted := days + 719468
  let era := shifted / 146097
  let dayOfEra := shifted % 146097
  let yearOfEra := (dayOfEra - dayOfEra / 1460 + dayOfEra / 36524 - dayOfEra / 146096) / 365
  let dayOfYear := dayOfEra - (365 * yearOfEra + yearOfEra / 4 - yearOfEra / 100)
  let marchMonth := (5 * dayOfYear + 2) / 153
  let day := dayOfYear - (153 * marchMonth + 2) / 5 + 1
  let month := if marchMonth < 10 then marchMonth + 3 else marchMonth - 9
  (yearOfEra + era * 400 + (if month ≤ 2 then 1 else 0), month, day)

def padded (width : ℕ) (n : ℕ) : String :=
  let text := (Nat.toDigits 10 n)
  String.ofList (List.replicate (width - text.length) '0' ++ text)

/-- Four digits for the years 0 to 9999, and a sign with six digits for the
others. -/
def yearText (year : ℤ) : String :=
  if 0 ≤ year ∧ year ≤ 9999 then padded 4 year.toNat
  else (if year < 0 then "-" else "+") ++ padded 6 year.natAbs

def isoText (time : ℤ) : String :=
  let date := civil (time / msPerDay)
  let ms := (time % msPerDay).toNat
  yearText date.1 ++ "-" ++ padded 2 date.2.1.toNat ++ "-" ++ padded 2 date.2.2.toNat ++ "T"
    ++ padded 2 (ms / 3600000) ++ ":" ++ padded 2 (ms / 60000 % 60) ++ ":"
    ++ padded 2 (ms / 1000 % 60) ++ "." ++ padded 3 (ms % 1000) ++ "Z"

def toISOString (time : ℤ) : Option String :=
  if |time| ≤ maxTime then some (isoText time) else none

example : toISOString 1709210096789 = some "2024-02-29T12:34:56.789Z" := by decide

example : toISOString (-62198755200000) = some "-000001-01-01T00:00:00.000Z" := by decide

/-! ## Valid dates -/

/-- The time value of a valid date. -/
structure Time where
  value : ℤ
  inRange : |value| ≤ maxTime
deriving DecidableEq

/-- `date.toISOString()` of a valid date, which does not throw. -/
def Time.toISOString (time : Time) : String := isoText time.value

/-- `date.getTime()`. -/
def Time.getTime (time : Time) : Number := .ofInt time.value

def truncate (x : ℚ) : ℤ := if 0 ≤ x then ⌊x⌋ else ⌈x⌉

theorem abs_truncate_le {x : ℚ} {bound : ℤ} (h : |x| ≤ bound) : |truncate x| ≤ bound := by
  obtain ⟨hlower, hupper⟩ := abs_le.mp h
  unfold truncate
  split_ifs with hsign
  · rw [abs_of_nonneg (Int.floor_nonneg.mpr hsign)]
    exact_mod_cast (Int.floor_le x).trans hupper
  · have hceil : ⌈x⌉ ≤ 0 := Int.ceil_le.mpr (by exact_mod_cast (not_le.mp hsign).le)
    rw [abs_of_nonpos hceil]
    have hbelow : (-bound : ℚ) ≤ ⌈x⌉ := hlower.trans (Int.le_ceil x)
    have hcast : -bound ≤ ⌈x⌉ := by exact_mod_cast hbelow
    omega

/-- `new Date(number)`; an invalid date is `none`. -/
def ofNumber : Number → Option Time
  | .finite x =>
    if h : |x| ≤ maxTime then some ⟨truncate x, abs_truncate_le h⟩ else none
  | _ => none

/-- A field declared as `string | Date`, where a date may be an invalid
one. -/
inductive Input where
  | text (text : String)
  | date (time : Option Time)
deriving DecidableEq

end JavaScript.Date
