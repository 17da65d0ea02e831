import Mathlib.Algebra.Order.Field.Rat
import Mathlib.Data.List.Range
import Mathlib.Data.String.Basic

/-!
# The Gregorian calendar

Dates of the proleptic Gregorian calendar, from year 1 to year 9999, by the number of the day: the
first of January of year 1 has number 1.
-/

namespace Scenara.Core

/-! ## Years and months -/

/-- The year has a 29th of February. -/
def isLeap (year : Nat) : Bool := year % 4 = 0 && (year % 100 ≠ 0 || year % 400 = 0)

/-- The days of a month. -/
def daysInMonth (leap : Bool) (month : Nat) : Nat :=
  if month = 2 then (if leap then 29 else 28)
  else if month = 4 ∨ month = 6 ∨ month = 9 ∨ month = 11 then 30
  else 31

/-- The days of the years before. -/
def daysBeforeYear (year : Nat) : Nat :=
  (year - 1) * 365 + (year - 1) / 4 - (year - 1) / 100 + (year - 1) / 400

/-- The days of the months before, within the year. -/
def daysBeforeMonth (leap : Bool) (month : Nat) : Nat :=
  ((List.range (month - 1)).map fun m => daysInMonth leap (m + 1)).sum

/-- A date. -/
structure Date where
  year : Nat
  month : Nat
  day : Nat
  year_mem : 1 ≤ year ∧ year ≤ 9999
  month_mem : 1 ≤ month ∧ month ≤ 12
  day_mem : 1 ≤ day ∧ day ≤ daysInMonth (isLeap year) month
  deriving DecidableEq

namespace Date

/-- The number of the date. -/
def toordinal (d : Date) : Nat :=
  daysBeforeYear d.year + daysBeforeMonth (isLeap d.year) d.month + d.day

/-! ## The day of the year -/

/-- Month and day of the day `r` of a year, counted from 0. -/
def ofYearDay (leap : Bool) (r : Nat) : Nat × Nat :=
  let month := (r + 50) / 32
  let month := if daysBeforeMonth leap month > r then month - 1 else month
  (month, r - daysBeforeMonth leap month + 1)

theorem ofYearDay_spec : ∀ leap : Bool, ∀ r < 365 + leap.toNat,
    1 ≤ (ofYearDay leap r).1 ∧ (ofYearDay leap r).1 ≤ 12 ∧ 1 ≤ (ofYearDay leap r).2 ∧
      (ofYearDay leap r).2 ≤ daysInMonth leap (ofYearDay leap r).1 ∧
      daysBeforeMonth leap (ofYearDay leap r).1 + (ofYearDay leap r).2 = r + 1 := by
  decide +kernel

theorem ofYearDay_day : ∀ leap : Bool, ∀ month < 13, 1 ≤ month →
    ∀ day < daysInMonth leap month + 1, 1 ≤ day →
      daysBeforeMonth leap month + day ≤ 365 + leap.toNat ∧
        ofYearDay leap (daysBeforeMonth leap month + day - 1) = (month, day) := by
  decide +kernel

theorem isLeap_toNat (year : Nat) : (isLeap year).toNat + (if 100 ∣ year then 1 else 0) =
    (if 4 ∣ year then 1 else 0) + if 400 ∣ year then 1 else 0 := by
  unfold isLeap
  simp only [← Nat.dvd_iff_mod_eq_zero, ne_eq]
  by_cases h400 : 400 ∣ year
  · have h100 : 100 ∣ year := Nat.dvd_trans (by decide) h400
    have h4 : 4 ∣ year := Nat.dvd_trans (by decide) h400
    simp [h4, h100, h400]
  · by_cases h100 : 100 ∣ year
    · have h4 : 4 ∣ year := Nat.dvd_trans (by decide) h100
      simp [h4, h100, h400]
    · by_cases h4 : 4 ∣ year <;> simp [h4, h100, h400]

theorem daysBeforeYear_succ {year : Nat} (h : 1 ≤ year) :
    daysBeforeYear (year + 1) = daysBeforeYear year + 365 + (isLeap year).toNat := by
  obtain ⟨y, rfl⟩ : ∃ y, year = y + 1 := ⟨year - 1, by omega⟩
  have hleap := isLeap_toNat (y + 1)
  have hone : (if 100 ∣ y + 1 then 1 else 0) ≤ 1 := by split <;> decide
  unfold daysBeforeYear
  rw [Nat.add_sub_cancel, Nat.add_sub_cancel, Nat.succ_div, Nat.succ_div, Nat.succ_div]
  omega

theorem daysBeforeYear_mono {a b : Nat} (ha : 1 ≤ a) (hab : a ≤ b) :
    daysBeforeYear a ≤ daysBeforeYear b := by
  induction b, hab using Nat.le_induction with
  | base => exact Nat.le_refl _
  | succ b =>
    rw [daysBeforeYear_succ (by omega)]
    omega

theorem toordinal_mem (d : Date) : daysBeforeYear d.year < d.toordinal ∧
    d.toordinal ≤ daysBeforeYear (d.year + 1) := by
  have hday := (ofYearDay_day (isLeap d.year) d.month (by have := d.month_mem; omega) d.month_mem.1
    d.day (by have := d.day_mem; omega) d.day_mem.1).1
  rw [daysBeforeYear_succ d.year_mem.1]
  have hpos := d.day_mem.1
  unfold toordinal
  omega

theorem year_eq {d e : Date} (h : d.toordinal = e.toordinal) : d.year = e.year := by
  obtain ⟨_, _⟩ := d.toordinal_mem
  obtain ⟨_, _⟩ := e.toordinal_mem
  rcases Nat.lt_trichotomy d.year e.year with hlt | heq | hgt
  · have := daysBeforeYear_mono (a := d.year + 1) (b := e.year) (by omega) hlt
    omega
  · exact heq
  · have := daysBeforeYear_mono (a := e.year + 1) (b := d.year) (by omega) hgt
    omega

theorem ext_fields {d e : Date} (hyear : d.year = e.year) (hmonth : d.month = e.month)
    (hday : d.day = e.day) : d = e := by
  cases d
  cases e
  cases hyear
  cases hmonth
  cases hday
  rfl

theorem toordinal_inj {d e : Date} (h : d.toordinal = e.toordinal) : d = e := by
  have hyear := year_eq h
  have hd := (ofYearDay_day (isLeap d.year) d.month (by have := d.month_mem; omega) d.month_mem.1
    d.day (by have := d.day_mem; omega) d.day_mem.1).2
  have he := (ofYearDay_day (isLeap e.year) e.month (by have := e.month_mem; omega) e.month_mem.1
    e.day (by have := e.day_mem; omega) e.day_mem.1).2
  unfold toordinal at h
  rw [← hyear] at h he
  have hsame : daysBeforeMonth (isLeap d.year) d.month + d.day =
      daysBeforeMonth (isLeap d.year) e.month + e.day := by omega
  rw [hsame, he] at hd
  exact ext_fields hyear (congrArg Prod.fst hd).symm (congrArg Prod.snd hd).symm

/-! ## The date with a number -/

/-- Year, month and day of the day with number `n + 1`. -/
def civil (n : Nat) : Nat × Nat × Nat :=
  let n400 := n / 146097
  let n := n % 146097
  let n100 := n / 36524
  let n := n % 36524
  let n4 := n / 1461
  let n := n % 1461
  let n1 := n / 365
  let year := n400 * 400 + n100 * 100 + n4 * 4 + n1 + 1
  if n1 = 4 ∨ n100 = 4 then (year - 1, 12, 31)
  else (year, ofYearDay (isLeap year) (n % 365))

theorem daysBeforeYear_cycles {a b c d : Nat} (hb : b < 4) (hc : c < 25) (hd : d < 4) :
    daysBeforeYear (a * 400 + b * 100 + c * 4 + d + 1) =
      a * 146097 + b * 36524 + c * 1461 + d * 365 := by
  unfold daysBeforeYear
  omega

/-- A day is one of the first 365 of its year, or the last one of a leap year. -/
theorem cycles (n : Nat) :
    (∃ a b c d r, b < 4 ∧ c < 25 ∧ d < 4 ∧ r < 365 ∧
        n = a * 146097 + b * 36524 + c * 1461 + d * 365 + r) ∨
      (∃ a b c, b < 4 ∧ c < 24 ∧ n = a * 146097 + b * 36524 + c * 1461 + 1460) ∨
        ∃ a, n = a * 146097 + 146096 := by
  by_cases hb : n % 146097 / 36524 = 4
  · exact .inr (.inr ⟨n / 146097, by omega⟩)
  · by_cases hd : n % 146097 % 36524 % 1461 / 365 = 4
    · exact .inr (.inl ⟨n / 146097, n % 146097 / 36524, n % 146097 % 36524 / 1461,
        by omega, by omega, by omega⟩)
    · exact .inl ⟨n / 146097, n % 146097 / 36524, n % 146097 % 36524 / 1461,
        n % 146097 % 36524 % 1461 / 365, n % 146097 % 36524 % 1461 % 365,
        by omega, by omega, by omega, by omega, by omega⟩

theorem divMod_eq {n k q r : Nat} (hn : n = q * k + r) (hr : r < k) : n / k = q ∧ n % k = r := by
  subst hn
  rw [Nat.mul_comm, Nat.mul_add_div (Nat.zero_lt_of_lt hr), Nat.mul_add_mod, Nat.div_eq_of_lt hr,
    Nat.mod_eq_of_lt hr]
  exact ⟨rfl, rfl⟩

theorem civil_eq {n a b c d p q s r : Nat} (h400 : n = a * 146097 + p) (hp : p < 146097)
    (h100 : p = b * 36524 + q) (hq : q < 36524) (h4 : q = c * 1461 + s)
    (hs : s < 1461) (h1 : s = d * 365 + r) (hr : r < 365) :
    civil n = if d = 4 ∨ b = 4 then (a * 400 + b * 100 + c * 4 + d + 1 - 1, 12, 31)
      else (a * 400 + b * 100 + c * 4 + d + 1,
        ofYearDay (isLeap (a * 400 + b * 100 + c * 4 + d + 1)) r) := by
  obtain ⟨hq400, hm400⟩ := divMod_eq h400 hp
  obtain ⟨hq100, hm100⟩ := divMod_eq h100 hq
  obtain ⟨hq4, hm4⟩ := divMod_eq h4 hs
  obtain ⟨hq1, hm1⟩ := divMod_eq h1 hr
  simp only [civil, hq400, hm400, hq100, hm100, hq4, hm4, hq1, hm1]

theorem civil_within {a b c d r : Nat} (hb : b < 4) (hc : c < 25) (hd : d < 4) (hr : r < 365) :
    civil (a * 146097 + b * 36524 + c * 1461 + d * 365 + r) =
      (a * 400 + b * 100 + c * 4 + d + 1,
        ofYearDay (isLeap (a * 400 + b * 100 + c * 4 + d + 1)) r) := by
  have hcivil := civil_eq (n := a * 146097 + b * 36524 + c * 1461 + d * 365 + r) (a := a)
    (p := b * 36524 + c * 1461 + d * 365 + r) (b := b) (q := c * 1461 + d * 365 + r) (c := c)
    (s := d * 365 + r) (d := d) (by omega) (by omega) (by omega) (by omega) (by omega)
      (by omega) rfl hr
  rw [hcivil, if_neg (by omega)]

theorem civil_last_of_four {a b c : Nat} (hb : b < 4) (hc : c < 24) :
    civil (a * 146097 + b * 36524 + c * 1461 + 1460) =
      (a * 400 + b * 100 + c * 4 + 3 + 1, 12, 31) := by
  have hcivil := civil_eq (n := a * 146097 + b * 36524 + c * 1461 + 1460) (a := a)
    (p := b * 36524 + c * 1461 + 1460) (b := b) (q := c * 1461 + 1460) (c := c)
    (s := 1460) (d := 4) (r := 0) (by omega) (by omega) (by omega) (by omega) (by omega) (by omega)
    rfl (by omega)
  rw [hcivil, if_pos (.inl rfl)]
  rfl

theorem civil_last_of_cycle (a : Nat) :
    civil (a * 146097 + 146096) = (a * 400 + 3 * 100 + 24 * 4 + 3 + 1, 12, 31) := by
  have hcivil := civil_eq (n := a * 146097 + 146096) (a := a) (p := 146096) (b := 4) (q := 0)
    (c := 0) (s := 0) (d := 0) (r := 0) rfl (by omega) rfl (by omega) rfl (by omega) rfl (by omega)
  rw [hcivil, if_pos (.inr rfl), Nat.add_sub_cancel]

theorem isLeap_last_of_four {a b c : Nat} (hc : c < 24) :
    isLeap (a * 400 + b * 100 + c * 4 + 3 + 1) = true := by
  have h4 : (a * 400 + b * 100 + c * 4 + 3 + 1) % 4 = 0 := by omega
  have h100 : (a * 400 + b * 100 + c * 4 + 3 + 1) % 100 ≠ 0 := by omega
  simp [isLeap, h4, h100]

theorem isLeap_last_of_cycle (a : Nat) : isLeap (a * 400 + 3 * 100 + 24 * 4 + 3 + 1) = true := by
  have h4 : (a * 400 + 3 * 100 + 24 * 4 + 3 + 1) % 4 = 0 := by omega
  have h400 : (a * 400 + 3 * 100 + 24 * 4 + 3 + 1) % 400 = 0 := by omega
  simp [isLeap, h4, h400]

theorem last_day : daysBeforeMonth true 12 = 335 := by decide

/-- Year, month and day of the day `n + 1`. -/
structure IsDay (n : Nat) (t : Nat × Nat × Nat) : Prop where
  year : 1 ≤ t.1
  month : 1 ≤ t.2.1 ∧ t.2.1 ≤ 12
  day : 1 ≤ t.2.2 ∧ t.2.2 ≤ daysInMonth (isLeap t.1) t.2.1
  number : daysBeforeYear t.1 + daysBeforeMonth (isLeap t.1) t.2.1 + t.2.2 = n + 1

theorem isDay_last {n year : Nat} (hyear : 1 ≤ year) (hleap : isLeap year = true)
    (hn : daysBeforeYear year + 366 = n + 1) : IsDay n (year, 12, 31) where
  year := hyear
  month := ⟨by simp, by simp⟩
  day := ⟨by simp, by show 31 ≤ daysInMonth (isLeap year) 12; rw [hleap]; decide⟩
  number := by
    rw [hleap, last_day]
    omega

/-- **The date of the day `n + 1`** is one, and has that number. -/
theorem civil_spec (n : Nat) : IsDay n (civil n) := by
  rcases cycles n with ⟨a, b, c, d, r, hb, hc, hd, hr, rfl⟩ | ⟨a, b, c, hb, hc, rfl⟩ | ⟨a, rfl⟩
  · rw [civil_within hb hc hd hr]
    obtain ⟨h1, h2, h3, h4, h5⟩ :=
      ofYearDay_spec (isLeap (a * 400 + b * 100 + c * 4 + d + 1)) r (by omega)
    refine ⟨by simp, ⟨h1, h2⟩, ⟨h3, h4⟩, ?_⟩
    rw [Nat.add_assoc, h5, daysBeforeYear_cycles hb hc hd, ← Nat.add_assoc]
  · have hyear := daysBeforeYear_cycles (a := a) (d := 3) hb (Nat.lt_succ_of_lt hc) (by decide)
    rw [civil_last_of_four hb hc]
    exact isDay_last (by omega) (isLeap_last_of_four hc) (by omega)
  · have hyear := daysBeforeYear_cycles (a := a) (b := 3) (c := 24) (d := 3) (by decide) (by decide)
      (by decide)
    rw [civil_last_of_cycle]
    exact isDay_last (by omega) (isLeap_last_of_cycle a) (by omega)

/-- The numbers of dates. -/
def maxOrdinal : Nat := 3652059

theorem civil_year_le {n : Nat} (h : n < maxOrdinal) : (civil n).1 ≤ 9999 := by
  have hday := (civil_spec n).day.1
  have hnumber := (civil_spec n).number
  by_contra hgt
  have hmono := daysBeforeYear_mono (a := 10000) (b := (civil n).1) (by decide) (by omega)
  have hlast : daysBeforeYear 10000 = maxOrdinal := by decide
  omega

/-- The date with a number. -/
def fromordinal (n : Nat) (h : 1 ≤ n ∧ n ≤ maxOrdinal) : Date where
  year := (civil (n - 1)).1
  month := (civil (n - 1)).2.1
  day := (civil (n - 1)).2.2
  year_mem := ⟨(civil_spec (n - 1)).year, civil_year_le (by omega)⟩
  month_mem := (civil_spec (n - 1)).month
  day_mem := (civil_spec (n - 1)).day

theorem toordinal_fromordinal {n : Nat} (h : 1 ≤ n ∧ n ≤ maxOrdinal) :
    (fromordinal n h).toordinal = n := by
  refine (civil_spec (n - 1)).number.trans ?_
  omega

/-- `isoweekday`, from the number of the date; the first one was a Monday. -/
def isoweekday (ordinal : Nat) : Nat := if ordinal % 7 = 0 then 7 else ordinal % 7

/-! ## `YYYY-MM-DD` -/

/-- The value of a digit of ASCII. -/
def digitVal (c : Char) : Option Nat := if c.isDigit then some (c.toNat - 48) else none

theorem digitVal_eq_some {c : Char} {k : Nat} :
    digitVal c = some k ↔ k < 10 ∧ c = Nat.digitChar k := by
  unfold digitVal
  constructor
  · intro h
    split at h
    · next hdigit =>
      have hrange : 48 ≤ c.toNat ∧ c.toNat ≤ 57 := Char.isDigit_iff_toNat.1 hdigit
      have hk : c.toNat - 48 = k := Option.some.inj h
      refine ⟨by omega, Char.toNat_inj.1 ?_⟩
      rw [Nat.toNat_digitChar_of_lt_ten (by omega)]
      omega
    · cases h
  · rintro ⟨hk, rfl⟩
    rw [Nat.isDigit_digitChar, if_pos (by simpa using hk), Nat.toNat_digitChar_of_lt_ten hk,
      Nat.add_sub_cancel_left]

theorem digitVal_isSome {c : Char} : (digitVal c).isSome = true ↔ c.isDigit = true := by
  unfold digitVal
  split
  all_goals next h => simp [h]

theorem digitVal_of_mem {c : Char} {n : Nat} (hn : n < 10) (hlow : '0' ≤ c)
    (hhigh : c ≤ Nat.digitChar n) : ∃ k, digitVal c = some k ∧ k ≤ n := by
  have hlow' : 48 ≤ c.toNat := hlow
  have hhigh' : c.toNat ≤ (Nat.digitChar n).toNat := hhigh
  rw [Nat.toNat_digitChar_of_lt_ten hn] at hhigh'
  refine ⟨c.toNat - 48, digitVal_eq_some.2 ⟨by omega, Char.toNat_inj.1 ?_⟩, by omega⟩
  rw [Nat.toNat_digitChar_of_lt_ten (by omega)]
  omega

/-- Two digits. -/
def two (n : Nat) : List Char := [Nat.digitChar (n / 10), Nat.digitChar (n % 10)]

/-- Two digits. -/
def readTwo (a b : Char) : Option Nat := do
  let tens ← digitVal a
  let units ← digitVal b
  some (tens * 10 + units)

theorem readTwo_eq_some {a b : Char} {n : Nat} :
    readTwo a b = some n ↔ n < 100 ∧ [a, b] = two n := by
  unfold readTwo two
  simp only [Option.bind_eq_bind, Option.bind_eq_some_iff, digitVal_eq_some, List.cons.injEq,
    and_true]
  constructor
  · rintro ⟨tens, ⟨_, rfl⟩, units, ⟨_, rfl⟩, hn⟩
    have hn' : tens * 10 + units = n := Option.some.inj hn
    have hdiv : n / 10 = tens := by omega
    have hmod : n % 10 = units := by omega
    exact ⟨by omega, by rw [hdiv], by rw [hmod]⟩
  · rintro ⟨_, ha, hb⟩
    exact ⟨n / 10, ⟨by omega, ha⟩, n % 10, ⟨by omega, hb⟩, congrArg some (by omega)⟩

/-- The date of a year, a month and a day, if there is one. -/
def ofFields (year month day : Nat) : Option Date :=
  if h : (1 ≤ year ∧ year ≤ 9999) ∧ (1 ≤ month ∧ month ≤ 12) ∧
      1 ≤ day ∧ day ≤ daysInMonth (isLeap year) month then
    some ⟨year, month, day, h.1, h.2.1, h.2.2⟩
  else none

theorem ofFields_eq_some {year month day : Nat} {d : Date} :
    ofFields year month day = some d ↔ d.year = year ∧ d.month = month ∧ d.day = day := by
  unfold ofFields
  constructor
  · intro h
    split at h
    · cases h
      exact ⟨rfl, rfl, rfl⟩
    · cases h
  · rintro ⟨rfl, rfl, rfl⟩
    rw [dif_pos ⟨d.year_mem, d.month_mem, d.day_mem⟩]

/-- `date.isoformat`. -/
def isoformat (d : Date) : String :=
  String.ofList (two (d.year / 100) ++ two (d.year % 100) ++ '-' :: two d.month ++ '-' :: two d.day)

/-- `date.fromisoformat`, of a text with the shape `YYYY-MM-DD`. -/
def fromisoformat (value : String) : Option Date :=
  match value.toList with
  | [a, b, c, d, '-', e, f, '-', g, h] => do
    let century ← readTwo a b
    let year ← readTwo c d
    let month ← readTwo e f
    let day ← readTwo g h
    ofFields (century * 100 + year) month day
  | _ => none

/-- **Texts of dates.** A text is read as a date exactly when it is the text of the date. -/
theorem fromisoformat_iff {value : String} {d : Date} :
    fromisoformat value = some d ↔ value = d.isoformat := by
  constructor
  · intro h
    unfold fromisoformat at h
    split at h
    · next a b c e f g k l heq =>
      simp only [Option.bind_eq_bind, Option.bind_eq_some_iff, readTwo_eq_some,
        ofFields_eq_some] at h
      obtain ⟨century, ⟨_, hab⟩, year, ⟨_, hce⟩, _, ⟨-, hfg⟩, _, ⟨-, hkl⟩, _, hm, hd⟩ := h
      have hdiv : d.year / 100 = century := by omega
      have hmod : d.year % 100 = year := by omega
      refine String.toList_inj.1 ?_
      rw [heq, isoformat, String.toList_ofList, hdiv, hmod, hm, hd, ← hab, ← hce, ← hfg, ← hkl]
      rfl
    · cases h
  · rintro rfl
    have hyear := d.year_mem
    have hmonth := d.month_mem
    have hlt : d.day < 100 := by
      have hle := d.day_mem.2
      unfold daysInMonth at hle
      split at hle
      · split at hle <;> omega
      · split at hle <;> omega
    unfold fromisoformat isoformat
    rw [String.toList_ofList]
    simp only [two, List.cons_append, List.nil_append]
    simp only [Option.bind_eq_bind, Option.bind_eq_some_iff, readTwo_eq_some, ofFields_eq_some]
    exact ⟨d.year / 100, ⟨by omega, rfl⟩, d.year % 100, ⟨by omega, rfl⟩, d.month, ⟨by omega, rfl⟩,
      d.day, ⟨hlt, rfl⟩, by omega, rfl, rfl⟩

end Date

end Scenara.Core
