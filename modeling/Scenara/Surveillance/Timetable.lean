import Scenara.Core.Calendar
import Scenara.Surveillance.Model

/-!
# Schedules as they are written

Model of `ScheduleWindow`, `ScheduleException` and `SurveillanceSchedule`
(`platform/surveillance.py`) with the texts that their validators admit, and of `is_active` down to
the calendar. `Schedule` of `Surveillance/Model.lean` is what is read of one.

* `ScheduleWindow.minutes`: what a clock time means; `fromisoformat`: what the code reads. It reads
  digits of ASCII only.
-/

namespace Scenara.Surveillance.Timetable

open Scenara.Core
open Scenara.Core.Date (digitVal readTwo isoweekday)

/-! ## Clock times -/

/-- What `\d` matches, with the value of each digit. In ASCII that is `0` to `9`. -/
structure Digits where
  value : Char → Option Nat
  lt : ∀ c k, value c = some k → k < 10
  ascii : ∀ c, c.toNat < 128 → value c = digitVal c

/-- No digits but those of ASCII. -/
def Digits.latin : Digits where
  value := digitVal
  lt _ _ h := (Date.digitVal_eq_some.1 h).1
  ascii _ _ := rfl

variable (digits : Digits)

/-- `^(?:[01]\d|2[0-3]):[0-5]\d$`. -/
def clockPattern (text : String) : Bool :=
  match text.toList with
  | [a, b, ':', c, d] =>
    (((a = '0' ∨ a = '1') ∧ (digits.value b).isSome) ∨ (a = '2' ∧ '0' ≤ b ∧ b ≤ '3')) ∧
      ('0' ≤ c ∧ c ≤ '5') ∧ (digits.value d).isSome
  | _ => false

/-- The minutes of the day that a clock time means; `24:00` is the end of the day. -/
def minutes (text : String) : Nat :=
  let value c := (digits.value c).getD 0
  match text.toList with
  | [a, b, ':', c, d] => (value a * 10 + value b) * 60 + (value c * 10 + value d)
  | _ => 0

/-- Microseconds of a minute, and of a day. -/
def usPerMinute : Nat := 60000000

/-- The microseconds of a day. -/
def usPerDay : Nat := 86400000000

/-- `clock_time.max`. -/
def clockMax : Nat := usPerDay - 1

/-- `clock_time.fromisoformat`, of a text with the shape `HH:MM`. -/
def fromisoformat (text : String) : Except String Nat :=
  let read := match text.toList with
    | [a, b, ':', c, d] => do
      let hour ← readTwo a b
      let minute ← readTwo c d
      if hour < 24 ∧ minute < 60 then some ((hour * 60 + minute) * usPerMinute) else none
    | _ => none
  match read with
  | some time => .ok time
  | none => .error ("Invalid isoformat string: '" ++ text ++ "'")

/-! ## Schedules -/

/-- `ScheduleWindow`, past its validators. -/
structure ScheduleWindow where
  weekday : Nat
  start : String
  stop : String
  weekday_mem : 1 ≤ weekday ∧ weekday ≤ 7
  start_pattern : clockPattern digits start = true
  stop_pattern : clockPattern digits stop = true ∨ stop = "24:00"
  differ : start ≠ stop
  ordered : stop ≠ "24:00" → ¬stop < start

/-- `ScheduleException`, past its validator. -/
structure ScheduleException where
  date : String
  enabled : Bool
  valid : (Date.fromisoformat date).isSome

/-- `SurveillanceSchedule`, past its validators. -/
structure SurveillanceSchedule where
  timezone : String
  weekly : List (ScheduleWindow digits)
  exceptions : List ScheduleException
  unique : (exceptions.map ScheduleException.date).Nodup

/-- The number of the first of January 1970. -/
def epoch : Nat := 719163

/-- A moment that `datetime` has. -/
structure Moment where
  us : Int
  mem : 1 ≤ us / usPerDay + epoch ∧ us / usPerDay + epoch ≤ Date.maxOrdinal

namespace Moment

variable (moment : Moment)

/-- The number of the day. -/
def ordinal : Nat := (moment.us / usPerDay + epoch).toNat

theorem ordinal_mem : 1 ≤ moment.ordinal ∧ moment.ordinal ≤ Date.maxOrdinal := by
  have h := moment.mem
  unfold ordinal
  omega

/-- `local.date()`. -/
def date : Date := Date.fromordinal moment.ordinal moment.ordinal_mem

/-- The time of the day, in microseconds. -/
def clock : Nat := (moment.us % usPerDay).toNat

theorem clock_lt : moment.clock < usPerDay := by
  have hpos : (0 : Int) < usPerDay := by decide
  have hlt := Int.emod_lt_of_pos moment.us hpos
  unfold clock
  omega

end Moment

/-- `.astimezone(target_zone)`: the wall clock there. -/
def astimezone (zoneInfo : String → Moment → Moment) (timezone : String) (moment : Moment) :
    Moment :=
  if timezone = "UTC" then moment else zoneInfo timezone moment

variable {digits}

/-- `start <= current < end`. -/
def ScheduleWindow.within (w : ScheduleWindow digits) (current : Nat) : Except String Bool := do
  let start ← fromisoformat w.start
  let stop ← if w.stop = "24:00" then .ok clockMax else fromisoformat w.stop
  .ok (start ≤ current && current < stop)

/-- The loop over the windows. -/
def search (here : Moment) : List (ScheduleWindow digits) → Except String Bool
  | [] => .ok false
  | w :: ws =>
    if w.weekday ≠ isoweekday here.ordinal then search here ws
    else do
      let active ← w.within here.clock
      if active then .ok true else search here ws

/-- `SurveillanceSchedule.is_active`. -/
def SurveillanceSchedule.isActive (zoneInfo : String → Moment → Moment)
    (s : SurveillanceSchedule digits) (moment : Moment) : Except String Bool :=
  let here := astimezone zoneInfo s.timezone moment
  match s.exceptions.find? fun item => item.date = here.date.isoformat with
  | some exception => .ok exception.enabled
  | none => if s.weekly.isEmpty then .ok true else search here s.weekly

end Scenara.Surveillance.Timetable
