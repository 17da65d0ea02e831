import Scenara.Surveillance.Timetable

/-!
# When a schedule is active

What the code does with dates and clock times, and what the schedule says of the moment.
-/

namespace Scenara.Surveillance.Timetable

open Scenara.Core
open Scenara.Core.Date (digitVal readTwo isoweekday)

variable {digits : Digits} {zoneInfo : String → Moment → Moment} {here moment : Moment}
  {s : SurveillanceSchedule digits} {w : ScheduleWindow digits} {ws : List (ScheduleWindow digits)}
  {text : String}

/-! ## What a schedule says -/

/-- The window has the weekday and, from its start on and before its end, the time of the day. -/
def Covers (here : Moment) (w : ScheduleWindow digits) : Prop :=
  w.weekday = isoweekday here.ordinal ∧ minutes digits w.start * usPerMinute ≤ here.clock ∧
    here.clock < minutes digits w.stop * usPerMinute
  deriving Decidable

/-- The exception is of the day. -/
def OnDay (here : Moment) (e : ScheduleException) : Prop :=
  ∃ d, Date.fromisoformat e.date = some d ∧ d.toordinal = here.ordinal

/-- What a schedule says of a moment on the wall clock. -/
def Says (here : Moment) (s : SurveillanceSchedule digits) (active : Bool) : Prop :=
  (∃ e ∈ s.exceptions, OnDay here e ∧ active = e.enabled) ∨
    (∀ e ∈ s.exceptions, ¬OnDay here e) ∧
      (active = true ↔ s.weekly = [] ∨ ∃ w ∈ s.weekly, Covers here w)

/-- The code does what the schedule says. -/
def Follows (zoneInfo : String → Moment → Moment) (s : SurveillanceSchedule digits)
    (moment : Moment) : Prop :=
  ∃ active, s.isActive zoneInfo moment = .ok active ∧
    Says (astimezone zoneInfo s.timezone moment) s active

/-! ## Exceptions -/

theorem date_eq_iff {e : ScheduleException} : e.date = here.date.isoformat ↔ OnDay here e := by
  have hordinal : here.date.toordinal = here.ordinal := Date.toordinal_fromordinal here.ordinal_mem
  constructor
  · intro h
    exact ⟨here.date, Date.fromisoformat_iff.2 h, hordinal⟩
  · rintro ⟨d, hd, hnumber⟩
    have heq : d = here.date := Date.toordinal_inj (hnumber.trans hordinal.symm)
    exact heq ▸ Date.fromisoformat_iff.1 hd

theorem find?_exceptions (s : SurveillanceSchedule digits) (here : Moment) :
    ((s.exceptions.find? fun item => item.date = here.date.isoformat) = none ∧
        ∀ e ∈ s.exceptions, ¬OnDay here e) ∨
      ∃ e ∈ s.exceptions, OnDay here e ∧
        (s.exceptions.find? fun item => item.date = here.date.isoformat) = some e := by
  cases hfind : s.exceptions.find? fun item => item.date = here.date.isoformat with
  | none =>
    refine .inl ⟨rfl, fun e he hday => ?_⟩
    exact List.find?_eq_none.1 hfind e he (decide_eq_true (date_eq_iff.2 hday))
  | some e =>
    have hdate : e.date = here.date.isoformat := by simpa using List.find?_some hfind
    exact .inr ⟨e, List.mem_of_find?_eq_some hfind, date_eq_iff.1 hdate, rfl⟩

theorem onDay_unique {e f : ScheduleException} (he : e ∈ s.exceptions) (hf : f ∈ s.exceptions)
    (hday : OnDay here e) (hday' : OnDay here f) : e = f :=
  List.inj_on_of_nodup_map s.unique he hf
    ((date_eq_iff.2 hday).trans (date_eq_iff.2 hday').symm)

theorem says_unique {a b : Bool} (ha : Says here s a) (hb : Says here s b) : a = b := by
  rcases ha with ⟨e, he, hday, rfl⟩ | ⟨hnone, ha⟩ <;> rcases hb with ⟨f, hf, hday', rfl⟩ |
    ⟨hnone', hb⟩
  · rw [onDay_unique he hf hday hday']
  · exact absurd hday (hnone' e he)
  · exact absurd hday' (hnone f hf)
  · rw [Bool.eq_iff_iff, ha, hb]

/-! ## Clock times -/

/-- The digits of a clock time are of ASCII. -/
def Latin (digits : Digits) (text : String) : Prop :=
  ∀ c ∈ text.toList, (digits.value c).isSome = true → c.isDigit = true
  deriving Decidable

theorem value_of_digitVal {c : Char} {k : Nat} (h : digitVal c = some k) :
    digits.value c = some k := by
  obtain ⟨hk, rfl⟩ := Date.digitVal_eq_some.1 h
  rw [digits.ascii _ (by rw [Nat.toNat_digitChar_of_lt_ten hk]; omega), h]

theorem clockPattern_shape (h : clockPattern digits text = true) : ∃ a b c d,
    text.toList = [a, b, ':', c, d] ∧ (((a = '0' ∨ a = '1') ∧ (digits.value b).isSome) ∨
      (a = '2' ∧ '0' ≤ b ∧ b ≤ '3')) ∧ ('0' ≤ c ∧ c ≤ '5') ∧ (digits.value d).isSome := by
  unfold clockPattern at h
  split at h
  · next a b c d heq =>
    exact ⟨a, b, c, d, heq, of_decide_eq_true h⟩
  · cases h

theorem readTwo_hour {a b : Char} (h : ((a = '0' ∨ a = '1') ∧ (digits.value b).isSome) ∨
    (a = '2' ∧ '0' ≤ b ∧ b ≤ '3')) : (∃ j, digitVal a = some j ∧
      ∀ k, digitVal b = some k → j * 10 + k < 24) := by
  rcases h with ⟨ha, -⟩ | ⟨rfl, hb, hb'⟩
  · obtain ⟨j, hj, hle⟩ : ∃ j, digitVal a = some j ∧ j ≤ 1 := by
      rcases ha with rfl | rfl
      · exact ⟨0, by decide, by decide⟩
      · exact ⟨1, by decide, by decide⟩
    refine ⟨j, hj, fun k hk => ?_⟩
    have hlt := (Date.digitVal_eq_some.1 hk).1
    omega
  · refine ⟨2, by decide, fun k hk => ?_⟩
    obtain ⟨_, hk', _⟩ := Date.digitVal_of_mem (n := 3) (by decide) hb hb'
    rw [hk] at hk'
    cases hk'
    omega

theorem isDigit_of_latin {c : Char} (h : Latin digits text) (hmem : c ∈ text.toList)
    (hsome : (digits.value c).isSome = true) : ∃ k, digitVal c = some k :=
  Option.isSome_iff_exists.1 (Date.digitVal_isSome.2 (h c hmem hsome))

theorem fromisoformat_of_pattern (h : clockPattern digits text = true) :
    (Latin digits text → fromisoformat text = .ok (minutes digits text * usPerMinute)) ∧
      (¬Latin digits text → ∃ e, fromisoformat text = .error e) := by
  obtain ⟨a, b, c, d, hshape, hhour, ⟨hc, hc'⟩, hd⟩ := clockPattern_shape h
  obtain ⟨j, hj, hlt⟩ := readTwo_hour hhour
  obtain ⟨m, hm, _⟩ := Date.digitVal_of_mem (n := 5) (by decide) hc hc'
  have hb : (digits.value b).isSome = true := by
    rcases hhour with ⟨-, hb⟩ | ⟨-, hb, hb'⟩
    · exact hb
    · obtain ⟨k, hk, -⟩ := Date.digitVal_of_mem (n := 3) (by decide) hb hb'
      rw [value_of_digitVal hk]
      rfl
  constructor
  · intro hlatin
    obtain ⟨k, hk⟩ := isDigit_of_latin hlatin (by simp [hshape]) hb
    obtain ⟨n, hn⟩ := isDigit_of_latin hlatin (by simp [hshape]) hd
    have hhours := hlt k hk
    have hunits := (Date.digitVal_eq_some.1 hn).1
    have hminutes : m * 10 + n < 60 := by omega
    unfold fromisoformat minutes
    rw [hshape]
    simp [readTwo, hj, hm, hk, hn, value_of_digitVal hj, value_of_digitVal hm, value_of_digitVal hk,
      value_of_digitVal hn, hhours, hminutes]
  · intro hlatin
    -- One of the two digits is of another script.
    have hforeign : digitVal b = none ∨ digitVal d = none := by
      by_contra hboth
      obtain ⟨hb', hd'⟩ := not_or.1 hboth
      refine hlatin fun x hx hsome => ?_
      have hdigit : ∀ {y : Char} {k : Nat}, digitVal y = some k → y.isDigit = true := fun hk =>
        Date.digitVal_isSome.1 (by rw [hk]; rfl)
      rw [hshape] at hx
      simp only [List.mem_cons, List.not_mem_nil, or_false] at hx
      rcases hx with rfl | rfl | rfl | rfl | rfl
      · exact hdigit hj
      · exact Date.digitVal_isSome.1 (Option.isSome_iff_ne_none.2 hb')
      · rw [digits.ascii _ (by decide)] at hsome
        exact Date.digitVal_isSome.1 hsome
      · exact hdigit hm
      · exact Date.digitVal_isSome.1 (Option.isSome_iff_ne_none.2 hd')
    unfold fromisoformat
    rw [hshape]
    rcases hforeign with hnone | hnone <;> simp [readTwo, hnone]

theorem minutes_le (h : clockPattern digits text = true) :
    minutes digits text * usPerMinute ≤ clockMax := by
  obtain ⟨a, b, c, d, hshape, hhour, ⟨hc, hc'⟩, hd⟩ := clockPattern_shape h
  obtain ⟨m, hm, _⟩ := Date.digitVal_of_mem (n := 5) (by decide) hc hc'
  obtain ⟨n, hn⟩ := Option.isSome_iff_exists.1 hd
  have hunits := digits.lt d n hn
  have hhours : ((digits.value a).getD 0 * 10 + (digits.value b).getD 0) < 24 := by
    rcases hhour with ⟨ha, hb⟩ | ⟨rfl, hb, hb'⟩
    · obtain ⟨k, hk⟩ := Option.isSome_iff_exists.1 hb
      have hlt := digits.lt b k hk
      have hone : (digits.value a).getD 0 ≤ 1 := by
        rcases ha with rfl | rfl
        · rw [value_of_digitVal (k := 0) (by decide)]
          decide
        · rw [value_of_digitVal (k := 1) (by decide)]
          decide
      rw [hk, Option.getD_some]
      omega
    · obtain ⟨k, hk, _⟩ := Date.digitVal_of_mem (n := 3) (by decide) hb hb'
      rw [value_of_digitVal hk, value_of_digitVal (k := 2) (by decide), Option.getD_some,
        Option.getD_some]
      omega
  have hminutes : minutes digits text < 24 * 60 := by
    unfold minutes
    rw [hshape]
    simp only [value_of_digitVal hm, hn, Option.getD_some]
    omega
  unfold usPerMinute clockMax usPerDay
  omega

/-- What the two clock times of a window can be read as. -/
def Readable (w : ScheduleWindow digits) : Prop := Latin digits w.start ∧ Latin digits w.stop
  deriving Decidable

theorem minutes_end (digits : Digits) : minutes digits "24:00" * usPerMinute = usPerDay := by
  have hvalue : ∀ c ∈ ['2', '4', '0'], digits.value c = digitVal c := fun c hc =>
    digits.ascii c (by
      simp only [List.mem_cons, List.not_mem_nil, or_false] at hc
      rcases hc with rfl | rfl | rfl <;> decide)
  have htwo : digits.value '2' = some 2 := hvalue '2' (by simp)
  have hfour : digits.value '4' = some 4 := hvalue '4' (by simp)
  have hzero : digits.value '0' = some 0 := hvalue '0' (by simp)
  show (((digits.value '2').getD 0 * 10 + (digits.value '4').getD 0) * 60 +
    ((digits.value '0').getD 0 * 10 + (digits.value '0').getD 0)) * usPerMinute = usPerDay
  rw [htwo, hfour, hzero]
  rfl

theorem latin_of_ascii {text : String} (h : text.toList.all (·.toNat < 128) = true) :
    Latin digits text := by
  intro c hc hsome
  rw [digits.ascii c (of_decide_eq_true (List.all_eq_true.1 h c hc))] at hsome
  exact Date.digitVal_isSome.1 hsome

theorem latin_end : Latin digits "24:00" := latin_of_ascii rfl

/-- The end of a window that the code works with: the end of the day comes one microsecond early. -/
def stopTime (w : ScheduleWindow digits) : Nat :=
  if w.stop = "24:00" then clockMax else minutes digits w.stop * usPerMinute

theorem within_of_readable (h : Readable w) (current : Nat) : w.within current =
    .ok (decide (minutes digits w.start * usPerMinute ≤ current ∧ current < stopTime w)) := by
  unfold ScheduleWindow.within stopTime
  rw [(fromisoformat_of_pattern w.start_pattern).1 h.1]
  by_cases hstop : w.stop = "24:00"
  · simp [hstop, bind, Except.bind]
  · have hpattern := w.stop_pattern.resolve_right hstop
    simp [hstop, (fromisoformat_of_pattern hpattern).1 h.2, bind, Except.bind]

theorem within_of_not_readable (h : ¬Readable w) (current : Nat) :
    ∃ e, w.within current = .error e := by
  unfold ScheduleWindow.within
  by_cases hstart : Latin digits w.start
  · rw [(fromisoformat_of_pattern w.start_pattern).1 hstart]
    have hlatin : ¬Latin digits w.stop := fun hstop => h ⟨hstart, hstop⟩
    have hstop : w.stop ≠ "24:00" := fun heq => hlatin (heq ▸ latin_end)
    obtain ⟨e, he⟩ := (fromisoformat_of_pattern (w.stop_pattern.resolve_right hstop)).2 hlatin
    exact ⟨e, by simp [hstop, he, bind, Except.bind]⟩
  · obtain ⟨e, he⟩ := (fromisoformat_of_pattern w.start_pattern).2 hstart
    exact ⟨e, by simp [he, bind, Except.bind]⟩

/-! ## The loop over the windows -/

/-- Every window of the weekday that is looked at, up to the first that covers the moment, is
read. -/
def ReadUpTo (here : Moment) : List (ScheduleWindow digits) → Prop
  | [] => True
  | w :: ws => (w.weekday = isoweekday here.ordinal → Readable w) ∧
      (¬Covers here w → ReadUpTo here ws)

/-- The moment is the last microsecond of a day that a window covers to its end. -/
def EndsDay (here : Moment) (ws : List (ScheduleWindow digits)) : Prop :=
  here.clock = clockMax ∧ ∃ w ∈ ws, w.weekday = isoweekday here.ordinal ∧ w.stop = "24:00"

theorem lt_stopTime_iff (h : here.clock ≠ clockMax ∨ w.stop ≠ "24:00") :
    here.clock < stopTime w ↔ here.clock < minutes digits w.stop * usPerMinute := by
  unfold stopTime
  split
  · next hstop =>
    have hne := h.resolve_right (not_not.2 hstop)
    rw [hstop, minutes_end]
    unfold clockMax at hne ⊢
    omega
  · rfl

/-- **The loop** finds a window that covers the moment exactly when it could read what comes before,
unless the day ends there. -/
theorem search_tells (hends : ¬EndsDay here ws) :
    (∃ active, search here ws = .ok active ∧ (active = true ↔ ∃ w ∈ ws, Covers here w)) ↔
      ReadUpTo here ws := by
  induction ws with
  | nil => simp [search, ReadUpTo]
  | cons w ws ih =>
    have hends' : ¬EndsDay here ws := fun ⟨hclock, v, hv, h⟩ =>
      hends ⟨hclock, v, List.mem_cons_of_mem w hv, h⟩
    unfold search ReadUpTo
    by_cases hday : w.weekday = isoweekday here.ordinal
    · rw [if_neg (not_not.2 hday)]
      by_cases hread : Readable w
      · have hlast : here.clock ≠ clockMax ∨ w.stop ≠ "24:00" := by
          by_contra h
          obtain ⟨hclock, hstop⟩ := not_or.1 h
          exact hends ⟨not_not.1 hclock, w, List.mem_cons_self, hday, not_not.1 hstop⟩
        have hwithin : w.within here.clock = .ok (decide (Covers here w)) := by
          rw [within_of_readable hread]
          simp only [Covers, hday, true_and, lt_stopTime_iff hlast]
        rw [hwithin]
        by_cases hcovers : Covers here w
        · simp [bind, Except.bind, hcovers, hread]
        · simpa [bind, Except.bind, hcovers, hread] using ih hends'
      · obtain ⟨e, he⟩ := within_of_not_readable hread here.clock
        rw [he]
        simp [bind, Except.bind, hday, hread]
    · rw [if_pos hday]
      have hcovers : ¬Covers here w := fun h => hday h.1
      simpa [hday, hcovers] using ih hends'

theorem stopTime_le : stopTime w ≤ clockMax := by
  unfold stopTime
  split
  · exact Nat.le_refl clockMax
  · next hstop => exact minutes_le (w.stop_pattern.resolve_right hstop)

theorem search_ends (hclock : here.clock = clockMax) : search here ws ≠ .ok true := by
  induction ws with
  | nil => simp [search]
  | cons w _ ih =>
    unfold search
    split
    · exact ih
    · by_cases hread : Readable w
      · have hstop : ¬here.clock < stopTime w := by
          rw [hclock]
          exact Nat.not_lt.2 stopTime_le
        rw [within_of_readable hread, decide_eq_false fun h => hstop h.2]
        exact ih
      · obtain ⟨e, he⟩ := within_of_not_readable hread here.clock
        rw [he]
        simp [bind, Except.bind]

/-- The code gets to its windows without harm. -/
def Fits (zoneInfo : String → Moment → Moment) (s : SurveillanceSchedule digits) (moment : Moment) :
    Prop :=
  let here := astimezone zoneInfo s.timezone moment
  (∃ e ∈ s.exceptions, OnDay here e) ∨ s.weekly = [] ∨
    (¬EndsDay here s.weekly ∧ ReadUpTo here s.weekly)

theorem follows_iff : Follows zoneInfo s moment ↔ Fits zoneInfo s moment := by
  unfold Follows Fits Says
  simp only [SurveillanceSchedule.isActive]
  generalize astimezone zoneInfo s.timezone moment = here
  rcases find?_exceptions s here with ⟨hfind, hnone⟩ | ⟨e, he, hday, hfind⟩
  · have hno : ¬∃ e ∈ s.exceptions, OnDay here e := fun ⟨e, he, hday⟩ => hnone e he hday
    have hno' : ∀ active : Bool, ¬∃ e ∈ s.exceptions, OnDay here e ∧ active = e.enabled :=
      fun _ ⟨e, he, hday, _⟩ => hnone e he hday
    rw [hfind]
    simp only [hno, hno', false_or, eq_true hnone, true_and]
    cases hweekly : s.weekly with
    | nil => exact ⟨fun _ => .inl rfl, fun _ => ⟨true, rfl, by simp⟩⟩
    | cons w ws =>
      simp only [List.isEmpty_cons, Bool.false_eq_true, if_false, reduceCtorEq, false_or]
      by_cases hends : EndsDay here (w :: ws)
      · refine iff_of_false ?_ fun h => h.1 hends
        rintro ⟨_, hactive, htold⟩
        obtain ⟨hclock, v, hv, hweekday, hstop⟩ := hends
        have hcovers : Covers here v := by
          refine ⟨hweekday, ?_, ?_⟩
          · have hpattern := v.start_pattern
            exact hclock ▸ minutes_le hpattern
          · rw [hstop, minutes_end]
            exact here.clock_lt
        rw [htold.2 ⟨v, hv, hcovers⟩] at hactive
        exact search_ends hclock hactive
      · rw [search_tells hends]
        exact ⟨fun h => ⟨hends, h⟩, fun h => h.2⟩
  · rw [hfind]
    exact ⟨fun _ => .inl ⟨e, he, hday⟩, fun _ => ⟨e.enabled, rfl, .inl ⟨e, he, hday, rfl⟩⟩⟩

/-! ## Every day, all day -/

/-- Every day of the week has a window from `00:00` to `24:00`, and there are no others. -/
structure WholeWeek (ws : List (ScheduleWindow digits)) : Prop where
  every : ∀ weekday, 1 ≤ weekday → weekday ≤ 7 → ∃ w ∈ ws, w.weekday = weekday
  whole : ∀ w ∈ ws, w.start = "00:00" ∧ w.stop = "24:00"

/-- The schedule without its windows. -/
def SurveillanceSchedule.always (s : SurveillanceSchedule digits) : SurveillanceSchedule digits :=
  { s with weekly := [] }

theorem isoweekday_mem (n : Nat) : 1 ≤ isoweekday n ∧ isoweekday n ≤ 7 := by
  unfold isoweekday
  split <;> omega

theorem latin_midnight : Latin digits "00:00" := latin_of_ascii rfl

theorem minutes_midnight : minutes digits "00:00" = 0 := by
  have hzero : digits.value '0' = some 0 := value_of_digitVal (by decide)
  show ((digits.value '0').getD 0 * 10 + (digits.value '0').getD 0) * 60 +
    ((digits.value '0').getD 0 * 10 + (digits.value '0').getD 0) = 0
  rw [hzero]
  rfl

theorem readUpTo_of_readable (h : ∀ w ∈ ws, Readable w) : ReadUpTo here ws := by
  induction ws with
  | nil => trivial
  | cons w _ ih =>
    exact ⟨fun _ => h w List.mem_cons_self, fun _ => ih fun v hv => h v (List.mem_cons_of_mem w hv)⟩

theorem WholeWeek.covers (h : WholeWeek ws) (here : Moment) : ∃ w ∈ ws, Covers here w := by
  obtain ⟨hlow, hhigh⟩ := isoweekday_mem here.ordinal
  obtain ⟨w, hw, hweekday⟩ := h.every _ hlow hhigh
  obtain ⟨hstart, hstop⟩ := h.whole w hw
  refine ⟨w, hw, hweekday, ?_, ?_⟩
  · rw [hstart, minutes_midnight, Nat.zero_mul]
    exact Nat.zero_le _
  · rw [hstop, minutes_end]
    exact here.clock_lt

theorem WholeWeek.endsDay_iff (h : WholeWeek ws) : EndsDay here ws ↔ here.clock = clockMax := by
  refine ⟨fun h => h.1, fun hclock => ⟨hclock, ?_⟩⟩
  obtain ⟨w, hw, hcovers⟩ := h.covers here
  exact ⟨w, hw, hcovers.1, (h.whole w hw).2⟩

theorem WholeWeek.ne_nil (h : WholeWeek ws) : ws ≠ [] := by
  rintro rfl
  obtain ⟨w, hw, -⟩ := h.every 1 (by decide) (by decide)
  cases hw

theorem follows_always (zoneInfo : String → Moment → Moment) (s : SurveillanceSchedule digits)
    (moment : Moment) : Follows zoneInfo s.always moment := follows_iff.2 (.inr (.inl rfl))

theorem WholeWeek.says_iff (h : WholeWeek s.weekly) {active : Bool} :
    Says here s active ↔ Says here s.always active := by
  unfold Says
  have hsame : (s.weekly = [] ∨ ∃ w ∈ s.weekly, Covers here w) ↔
      ((s.always.weekly = [] ∨ ∃ w ∈ s.always.weekly, Covers here w)) :=
    iff_of_true (.inr (h.covers here)) (.inl rfl)
  rw [hsame]
  rfl

theorem WholeWeek.isActive_eq_iff (h : WholeWeek s.weekly) :
    s.isActive zoneInfo moment = s.always.isActive zoneInfo moment ↔
      (∃ e ∈ s.exceptions, OnDay (astimezone zoneInfo s.timezone moment) e) ∨
        (astimezone zoneInfo s.timezone moment).clock ≠ clockMax := by
  have hreadable : ∀ w ∈ s.weekly, Readable w := fun w hw =>
    ⟨(h.whole w hw).1 ▸ latin_midnight, (h.whole w hw).2 ▸ latin_end⟩
  have hfits : Fits zoneInfo s moment ↔
      (∃ e ∈ s.exceptions, OnDay (astimezone zoneInfo s.timezone moment) e) ∨
        (astimezone zoneInfo s.timezone moment).clock ≠ clockMax := by
    unfold Fits
    simp only [h.ne_nil, false_or, h.endsDay_iff, readUpTo_of_readable hreadable, and_true, ne_eq]
  rw [← hfits, ← follows_iff]
  obtain ⟨active, hactive, htold⟩ := follows_always zoneInfo s moment
  constructor
  · intro heq
    exact ⟨active, heq.trans hactive, h.says_iff.2 htold⟩
  · rintro ⟨_, hactive', htold'⟩
    rw [hactive', hactive, says_unique (h.says_iff.1 htold') htold]

/-- **Weekly schedules.** At every moment, the schedule is active when it says so, exactly if an
exception of the day decides, there are no windows, or no window that ends at `24:00` is asked about
the day's last microsecond and none with a digit of another script is looked at; windows for every
day, all day, are as none, exactly if an exception decides or it is not that microsecond. -/
theorem active_iff (digits : Digits) (zoneInfo : String → Moment → Moment)
    (s : SurveillanceSchedule digits) (moment : Moment) :
    (Follows zoneInfo s moment ↔ Fits zoneInfo s moment) ∧
      (WholeWeek s.weekly → (s.isActive zoneInfo moment = s.always.isActive zoneInfo moment ↔
        (∃ e ∈ s.exceptions, OnDay (astimezone zoneInfo s.timezone moment) e) ∨
          (astimezone zoneInfo s.timezone moment).clock ≠ clockMax)) :=
  ⟨follows_iff, fun h => h.isActive_eq_iff⟩

/-- From midnight to midnight. -/
def allDay (weekday : Nat) (h : 1 ≤ weekday ∧ weekday ≤ 7) : ScheduleWindow .latin where
  weekday := weekday
  start := "00:00"
  stop := "24:00"
  weekday_mem := h
  start_pattern := by decide
  stop_pattern := .inr rfl
  differ := by decide
  ordered := by simp

/-- Every day, all day. -/
def everyDay : SurveillanceSchedule .latin where
  timezone := "UTC"
  weekly := [allDay 1 (by decide), allDay 2 (by decide), allDay 3 (by decide), allDay 4 (by decide),
    allDay 5 (by decide), allDay 6 (by decide), allDay 7 (by decide)]
  exceptions := []
  unique := by simp

theorem wholeWeek_everyDay : WholeWeek everyDay.weekly where
  every weekday hlow hhigh := by
    have hcases : weekday = 1 ∨ weekday = 2 ∨ weekday = 3 ∨ weekday = 4 ∨ weekday = 5 ∨
        weekday = 6 ∨ weekday = 7 := by omega
    rcases hcases with rfl | rfl | rfl | rfl | rfl | rfl | rfl <;> simp [everyDay, allDay]
  whole w hw := by
    simp only [everyDay, List.mem_cons, List.not_mem_nil, or_false] at hw
    rcases hw with rfl | rfl | rfl | rfl | rfl | rfl | rfl <;> exact ⟨rfl, rfl⟩

/-- The last microsecond of the first of January 1970. -/
def lastOfDay : Moment := ⟨86399999999, by decide⟩

/-- The first moment of it. -/
def midnight : Moment := ⟨0, by decide⟩

/-- Closed on the first of January 1970. -/
def closedOnce : SurveillanceSchedule .latin :=
  { everyDay with exceptions := [⟨"1970-01-01", false, by decide⟩], unique := by simp }

theorem onDay_closedOnce : OnDay lastOfDay ⟨"1970-01-01", false, by decide⟩ :=
  date_eq_iff.1 (by decide +kernel)

theorem active_iff_midnight :
    everyDay.isActive (fun _ => id) midnight = everyDay.always.isActive (fun _ => id) midnight ∧
      closedOnce.isActive (fun _ => id) lastOfDay =
        closedOnce.always.isActive (fun _ => id) lastOfDay :=
  ⟨((active_iff .latin (fun _ => id) everyDay midnight).2 wholeWeek_everyDay).2
      (.inr (by decide +kernel)),
    ((active_iff .latin (fun _ => id) closedOnce lastOfDay).2 wholeWeek_everyDay).2
      (.inl ⟨_, List.mem_singleton_self _, onDay_closedOnce⟩)⟩

theorem not_active : ¬∀ (digits : Digits) (zoneInfo : String → Moment → Moment)
    (s : SurveillanceSchedule digits) (moment : Moment), s.timezone = "UTC" →
      Follows zoneInfo s moment := by
  intro h
  have hends : EndsDay lastOfDay everyDay.weekly :=
    wholeWeek_everyDay.endsDay_iff.2 (by decide +kernel)
  rcases follows_iff.1 (h .latin (fun _ => id) everyDay lastOfDay rfl) with ⟨e, he, -⟩ | hnil |
    ⟨hnot, -⟩
  · cases he
  · exact wholeWeek_everyDay.ne_nil hnil
  · exact hnot hends

/-! ## What is read of a schedule -/

/-- The wall clock as the schedule of a task is asked about it. -/
def localTime (here : Moment) : LocalTime :=
  ⟨here.date.isoformat, isoweekday here.ordinal, here.clock⟩

/-- The schedule with its clock times read. -/
def SurveillanceSchedule.read (s : SurveillanceSchedule digits) : Schedule where
  timezone := s.timezone
  weekly := s.weekly.map fun w => ⟨w.weekday, minutes digits w.start, minutes digits w.stop⟩
  exceptions := s.exceptions.map fun e => ⟨e.date, e.enabled⟩

theorem clockTime_of_pattern (h : clockPattern digits text = true) :
    clockTime (minutes digits text) = minutes digits text * usPerMinute := by
  have hle := minutes_le h
  unfold clockTime
  rw [if_neg]
  · rfl
  · intro heq
    rw [heq] at hle
    revert hle
    decide

theorem clockTime_stop (w : ScheduleWindow digits) :
    clockTime (minutes digits w.stop) = stopTime w := by
  unfold stopTime
  split
  · next hstop =>
    have hend : minutes digits w.stop = 1440 := by
      have husPerDay := minutes_end digits
      rw [hstop]
      exact Nat.eq_of_mul_eq_mul_right (by decide : 0 < usPerMinute) husPerDay
    rw [hend]
    rfl
  · next hstop => exact clockTime_of_pattern (w.stop_pattern.resolve_right hstop)

theorem search_of_readable (h : ∀ w ∈ ws, Readable w) : search here ws = .ok (ws.any fun w =>
    w.weekday = isoweekday here.ordinal && clockTime (minutes digits w.start) ≤ here.clock &&
      here.clock < clockTime (minutes digits w.stop)) := by
  induction ws with
  | nil => rfl
  | cons w _ ih =>
    have ih' := ih fun v hv => h v (List.mem_cons_of_mem w hv)
    unfold search
    rw [List.any_cons, clockTime_stop, clockTime_of_pattern w.start_pattern, ih']
    by_cases hday : w.weekday = isoweekday here.ordinal
    · rw [if_neg (not_not.2 hday), within_of_readable (h w List.mem_cons_self), decide_eq_true hday]
      by_cases hin : minutes digits w.start * usPerMinute ≤ here.clock ∧ here.clock < stopTime w
      · rw [decide_eq_true hin, decide_eq_true hin.1, decide_eq_true hin.2]
        rfl
      · rw [decide_eq_false hin, Bool.true_and, ← Bool.decide_and, decide_eq_false hin]
        rfl
    · rw [if_pos hday, decide_eq_false hday]
      rfl

/-- **What is read of a schedule** is active exactly when the schedule is, if all of it is read. -/
theorem isActive_read (h : ∀ w ∈ s.weekly, Readable w) (now : ℚ) : s.isActive zoneInfo moment =
    .ok (s.read.isActive (fun zone _ => localTime (astimezone zoneInfo zone moment)) now) := by
  have hfind : (s.read.exceptions.find? fun e =>
      e.date = (localTime (astimezone zoneInfo s.timezone moment)).date) =
        (s.exceptions.find? fun e =>
          e.date = (astimezone zoneInfo s.timezone moment).date.isoformat).map
            fun e => ⟨e.date, e.enabled⟩ := List.find?_map
  unfold Schedule.isActive
  simp only [SurveillanceSchedule.isActive]
  have hzone : s.read.timezone = s.timezone := rfl
  rw [hzone, hfind]
  cases s.exceptions.find? fun e => e.date =
    (astimezone zoneInfo s.timezone moment).date.isoformat with
  | some e => rfl
  | none =>
    simp only [Option.map_none, SurveillanceSchedule.read, List.isEmpty_map, List.any_map]
    cases hweekly : s.weekly with
    | nil => rfl
    | cons w =>
      rw [hweekly] at h
      exact search_of_readable h

theorem isActive_read_everyDay : everyDay.isActive (fun _ => id) lastOfDay =
    .ok (everyDay.read.isActive (fun zone _ => localTime (astimezone (fun _ => id) zone lastOfDay))
      0) := by
  refine isActive_read (fun w hw => ?_) 0
  obtain ⟨hstart, hstop⟩ := wholeWeek_everyDay.whole w hw
  exact ⟨hstart ▸ latin_of_ascii rfl, hstop ▸ latin_end⟩

end Scenara.Surveillance.Timetable
