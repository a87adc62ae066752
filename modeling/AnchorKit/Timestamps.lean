import AnchorKit.Library.Blocks
import AnchorKit.Library.Text
import Mathlib.Tactic.IntervalCases
import Mathlib.Tactic.SplitIfs

/-!
# Timestamps of fingerprints

The date of a day is found by taking the years and then the months off the count of days. The
timestamps tell the times apart, and up to the year 10000 they are in the order of the times.
-/

namespace AnchorKit

namespace EnvFingerprint

open Blocks

/-! ### Dates -/

def isLeap (y : ℕ) : Bool := (y % 4 = 0 && y % 100 ≠ 0) || y % 400 = 0

def daysInYear (year : ℕ) : ℕ := if isLeap year then 366 else 365

theorem daysInYear_pos (year : ℕ) : 0 < daysInYear year := by
  unfold daysInYear
  split_ifs
  · decide
  · decide

def yearLoop (days year : ℕ) : ℕ × ℕ :=
  if days < daysInYear year then (days, year)
  else yearLoop (days - daysInYear year) (year + 1)
termination_by days
decreasing_by
  have := daysInYear_pos year
  omega

def monthDays (year : ℕ) : List ℕ :=
  [31, if isLeap year then 29 else 28, 31, 30, 31, 30, 31, 31, 30, 31, 30, 31]

def monthLoop (days month : ℕ) : List ℕ → ℕ × ℕ
  | [] => (days, month)
  | md :: rest => if days < md then (days, month) else monthLoop (days - md) (month + 1) rest

def daysToYmd (days : ℕ) : ℕ × ℕ × ℕ :=
  let (days, year) := yearLoop days 1970
  let (days, month) := monthLoop days 1 (monthDays year)
  (year, month, days + 1)

def formatTimestamp (y mo d hh mm ss : ℕ) : Text :=
  Text.zeroPadded 4 y ++ '-' :: (Text.zeroPadded 2 mo ++ '-' :: (Text.zeroPadded 2 d ++
    'T' :: (Text.zeroPadded 2 hh ++ ':' :: (Text.zeroPadded 2 mm ++
      ':' :: (Text.zeroPadded 2 ss ++ ['Z'])))))

def currentTimestamp (secs : UInt64) : Text :=
  let s := secs.toNat
  let ss := s % 60
  let m := s / 60
  let mm := m % 60
  let h := m / 60
  let hh := h % 24
  let days := h / 24
  let (y, mo, d) := daysToYmd days
  formatTimestamp y mo d hh mm ss

/-! ### The calendar -/

/-- Every fourth year, but of the centuries every fourth one only. -/
def LeapYear (year : ℕ) : Prop := 400 ∣ year ∨ (4 ∣ year ∧ ¬ 100 ∣ year)

instance : DecidablePred LeapYear := fun _ => inferInstanceAs (Decidable (_ ∨ _))

theorem isLeap_iff {year : ℕ} : isLeap year = true ↔ LeapYear year := by
  simp only [isLeap, LeapYear, Bool.or_eq_true, Bool.and_eq_true, decide_eq_true_eq,
    Nat.dvd_iff_mod_eq_zero]
  exact Or.comm

structure CivilTime where
  year : ℕ
  month : ℕ
  day : ℕ
  hour : ℕ
  minute : ℕ
  second : ℕ

namespace CivilTime

def years (i : ℕ) : ℕ := if LeapYear (1970 + i) then 366 else 365

def months (year : ℕ) : ℕ → ℕ
  | 0 | 2 | 4 | 6 | 7 | 9 | 11 => 31
  | 3 | 5 | 8 | 10 => 30
  | 1 => if LeapYear year then 29 else 28
  | _ => 0

structure Valid (t : CivilTime) : Prop where
  year : 1970 ≤ t.year
  month : 1 ≤ t.month ∧ t.month ≤ 12
  day : 1 ≤ t.day ∧ t.day ≤ months t.year (t.month - 1)
  hour : t.hour < 24
  minute : t.minute < 60
  second : t.second < 60

def days (t : CivilTime) : ℕ :=
  start years (t.year - 1970) + (start (months t.year) (t.month - 1) + (t.day - 1))

def seconds (t : CivilTime) : ℕ := ((t.days * 24 + t.hour) * 60 + t.minute) * 60 + t.second

def fields (t : CivilTime) : List ℕ := [t.year, t.month, t.day, t.hour, t.minute, t.second]

def format (t : CivilTime) : Text := formatTimestamp t.year t.month t.day t.hour t.minute t.second

variable {t t' : CivilTime} {year i : ℕ}

theorem years_eq (i : ℕ) : years i = daysInYear (1970 + i) := by
  simp only [years, daysInYear, isLeap_iff]

theorem getD_monthDays (year i : ℕ) : (monthDays year).getD i 0 = months year i := by
  have hfebruary : (if isLeap year then 29 else 28) = if LeapYear year then 29 else 28 := by
    simp only [isLeap_iff]
  unfold monthDays
  rw [hfebruary]
  by_cases hi : i < 12
  · interval_cases i <;> rfl
  · obtain ⟨k, rfl⟩ := Nat.exists_eq_add_of_le' (Nat.le_of_not_lt hi)
    rfl

theorem start_months (year : ℕ) : start (months year) 12 = daysInYear year := by
  simp only [start_succ, start_zero, ← getD_monthDays, monthDays, daysInYear, List.getD_cons_zero,
    List.getD_cons_succ]
  split_ifs
  · rfl
  · rfl

theorem months_le (year i : ℕ) : months year i ≤ 31 := by
  rw [← getD_monthDays, List.getD_eq_getElem?_getD]
  cases hget : (monthDays year)[i]? with
  | none => exact Nat.zero_le 31
  | some md =>
    have hmem := List.mem_of_getElem? hget
    have hshort : ∀ md ∈ monthDays year, md ≤ 31 := by
      unfold monthDays
      split_ifs
      · decide
      · decide
    exact hshort md hmem

theorem Valid.at_month (h : t.Valid) : At (months t.year)
    (start (months t.year) (t.month - 1) + (t.day - 1)) (t.month - 1) (t.day - 1) := by
  have hday := h.day
  exact ⟨by omega, rfl⟩

theorem Valid.at_year (h : t.Valid) : At years t.days (t.year - 1970)
    (start (months t.year) (t.month - 1) + (t.day - 1)) := by
  refine ⟨?_, rfl⟩
  have hyear : 1970 + (t.year - 1970) = t.year := Nat.add_sub_cancel' h.year
  rw [years_eq, hyear, ← start_months]
  have hmonth := h.month
  have hplace := h.at_month.place
  have hend : start (months t.year) (t.month - 1 + 1) ≤ start (months t.year) 12 :=
    start_mono (by omega)
  rw [start_succ] at hend
  omega

theorem Valid.days_lt_iff (h : t.Valid) (h' : t'.Valid) : t.days < t'.days ↔
    t.year < t'.year ∨ t.year = t'.year ∧
      (t.month < t'.month ∨ t.month = t'.month ∧ t.day < t'.day) := by
  have hyear := h.year
  have hyear' := h'.year
  rw [h.at_year.lt_iff h'.at_year]
  by_cases hsame : t.year = t'.year
  · have hmonth := h.at_month
    rw [hsame] at hmonth
    have hmonths := hmonth.lt_iff h'.at_month
    have hone := h.month.1
    have hone' := h'.month.1
    have hday := h.day.1
    have hday' := h'.day.1
    rw [hsame, hmonths]
    omega
  · omega

/-- Times are in the order of their years, months and so on. -/
theorem Valid.seconds_lt_iff (h : t.Valid) (h' : t'.Valid) :
    t.seconds < t'.seconds ↔ t.fields < t'.fields := by
  have hdays := h.days_lt_iff h'
  have hback := h'.days_lt_iff h
  have hhour := h.hour
  have hhour' := h'.hour
  have hminute := h.minute
  have hminute' := h'.minute
  have hsecond := h.second
  have hsecond' := h'.second
  simp only [fields, List.cons_lt_cons_iff, List.not_lt_nil, and_false, or_false]
  unfold seconds
  omega

theorem Valid.eq_of_seconds (h : t.Valid) (h' : t'.Valid) (hsame : t.seconds = t'.seconds) :
    t = t' := by
  have hforth : ¬ t.fields < t'.fields := by
    rw [← h.seconds_lt_iff h']
    omega
  have hback : ¬ t'.fields < t.fields := by
    rw [← h'.seconds_lt_iff h]
    omega
  obtain ⟨year, month, day, hour, minute, second⟩ := t
  obtain ⟨year', month', day', hour', minute', second'⟩ := t'
  simp only [fields, List.cons_lt_cons_iff, List.not_lt_nil, and_false, or_false] at hforth hback
  simp only [CivilTime.mk.injEq]
  omega

theorem Valid.format_lt_iff (h : t.Valid) (h' : t'.Valid) (hyear : t.year < 10000)
    (hyear' : t'.year < 10000) : t.format < t'.format ↔ t.fields < t'.fields := by
  have hlength := months_le t.year (t.month - 1)
  have hlength' := months_le t'.year (t'.month - 1)
  have hmonth := h.month.2
  have hmonth' := h'.month.2
  have hday := h.day.2
  have hday' := h'.day.2
  have hhour := h.hour
  have hhour' := h'.hour
  have hminute := h.minute
  have hminute' := h'.minute
  have hsecond := h.second
  have hsecond' := h'.second
  have hfour : 0 < 4 := by decide
  have htwo : 0 < 2 := by decide
  have hlt (c : Char) (u v : Text) : c :: u < c :: v ↔ u < v := List.cons_lt_cons_self
  rw [format, formatTimestamp, format, formatTimestamp,
    Text.zeroPadded_append_lt_iff hfour hyear hyear', hlt,
    Text.zeroPadded_append_lt_iff htwo (by omega) (by omega), hlt,
    Text.zeroPadded_append_lt_iff htwo (by omega) (by omega), hlt,
    Text.zeroPadded_append_lt_iff htwo (by omega) (by omega), hlt,
    Text.zeroPadded_append_lt_iff htwo (by omega) (by omega), hlt,
    Text.zeroPadded_append_lt_iff htwo (by omega) (by omega)]
  simp only [fields, List.cons_lt_cons_iff, List.not_lt_nil, and_false, or_false]
  simp

theorem format_injective (h : t.format = t'.format) : t = t' := by
  obtain ⟨year, month, day, hour, minute, second⟩ := t
  obtain ⟨year', month', day', hour', minute', second'⟩ := t'
  have hdash : ('-' : Char).isDigit = false := by decide
  have hT : ('T' : Char).isDigit = false := by decide
  have hcolon : (':' : Char).isDigit = false := by decide
  have hZ : ('Z' : Char).isDigit = false := by decide
  simp only [format, formatTimestamp, Text.zeroPadded_append_cons_inj hdash,
    Text.zeroPadded_append_cons_inj hT, Text.zeroPadded_append_cons_inj hcolon,
    Text.zeroPadded_append_cons_inj hZ, and_true] at h
  obtain ⟨rfl, rfl, rfl, rfl, rfl, rfl⟩ := h
  rfl

theorem start_years (k : ℕ) :
    start years k + 477 = 365 * k + ((1969 + k) / 4 - (1969 + k) / 100 + (1969 + k) / 400) := by
  induction k with
  | zero => simp
  | succ k ih =>
    have hlength : years k = 365 + ((1970 + k) / 4 - (1970 + k) / 100 + (1970 + k) / 400) -
        ((1969 + k) / 4 - (1969 + k) / 100 + (1969 + k) / 400) := by
      unfold years
      by_cases hleap : LeapYear (1970 + k)
      · rw [if_pos hleap]
        unfold LeapYear at hleap
        omega
      · rw [if_neg hleap]
        unfold LeapYear at hleap
        omega
    rw [start_succ, hlength]
    omega

theorem Valid.year_lt_of_seconds (h : t.Valid) (hseconds : t.seconds < 253402300800) :
    t.year < 10000 := by
  by_contra hlate
  have hdays := h.at_year.position
  have hmono : start years 8030 ≤ start years (t.year - 1970) := start_mono (by omega)
  have hstart := start_years 8030
  unfold seconds at hseconds
  omega

end CivilTime

/-! ### What the loops find -/

theorem yearLoop_at (days year : ℕ) : ∃ k, (yearLoop days year).2 = year + k ∧
    At (fun i => daysInYear (year + i)) days k (yearLoop days year).1 := by
  induction days, year using yearLoop.induct with
  | case1 days year h =>
    rw [yearLoop, if_pos h]
    exact ⟨0, rfl, at_zero h⟩
  | case2 days year h ih =>
    obtain ⟨k, hyear, hat⟩ := ih
    rw [yearLoop, if_neg h]
    refine ⟨k + 1, by rw [hyear, Nat.add_assoc, Nat.add_comm 1], At.succ ?_ ?_⟩
    · exact Nat.le_of_not_lt h
    · have hshift : (fun i => daysInYear (year + (i + 1))) = fun i => daysInYear (year + 1 + i) :=
        funext fun i => by rw [Nat.add_assoc, Nat.add_comm 1]
      rw [hshift]
      exact hat

/-- The loop over the months finds the month that the day is in, unless all months are over. -/
theorem monthLoop_at {days : ℕ} (month : ℕ) {lengths : List ℕ}
    (h : days < start (fun i => lengths.getD i 0) lengths.length) :
    ∃ k < lengths.length, (monthLoop days month lengths).2 = month + k ∧
      At (fun i => lengths.getD i 0) days k (monthLoop days month lengths).1 := by
  induction lengths generalizing days month with
  | nil => exact absurd h (Nat.not_lt_zero _)
  | cons md rest ih =>
    rw [monthLoop]
    by_cases hday : days < md
    · rw [if_pos hday]
      exact ⟨0, Nat.succ_pos _, rfl, at_zero hday⟩
    · rw [List.length_cons, start_succ'] at h
      simp only [List.getD_cons_zero, List.getD_cons_succ] at h
      have hleft : days - md < start (fun i => rest.getD i 0) rest.length := by omega
      obtain ⟨k, hk, hmonth, hat⟩ := ih (month + 1) hleft
      rw [if_neg hday]
      refine ⟨k + 1, Nat.succ_lt_succ hk, by rw [hmonth, Nat.add_assoc, Nat.add_comm 1], ?_⟩
      refine At.succ (Nat.le_of_not_lt hday) ?_
      simpa only [List.getD_cons_zero, List.getD_cons_succ] using hat

/-- The day of a date counted from the start of 1970 is the one that it was found for. -/
theorem daysToYmd_spec (days hour minute second : ℕ) (hhour : hour < 24) (hminute : minute < 60)
    (hsecond : second < 60) : ∃ t : CivilTime, t.Valid ∧ t.days = days ∧ t.hour = hour ∧
      t.minute = minute ∧ t.second = second ∧ daysToYmd days = (t.year, t.month, t.day) := by
  obtain ⟨k, hyear, hat⟩ := yearLoop_at days 1970
  simp only [← CivilTime.years_eq] at hat
  have hrest : (yearLoop days 1970).1 <
      start (fun i => (monthDays (1970 + k)).getD i 0) (monthDays (1970 + k)).length := by
    have hyearLength := hat.place
    rw [CivilTime.years_eq, ← CivilTime.start_months] at hyearLength
    simp only [CivilTime.getD_monthDays]
    exact hyearLength
  obtain ⟨j, hj, hmonth, hday⟩ := monthLoop_at 1 hrest
  simp only [CivilTime.getD_monthDays] at hday
  have hj : j < 12 := hj
  have hplace := hday.place
  refine ⟨⟨1970 + k, 1 + j, (monthLoop (yearLoop days 1970).1 1 (monthDays (1970 + k))).1 + 1,
    hour, minute, second⟩, ⟨?_, ?_, ?_, hhour, hminute, hsecond⟩, ?_, rfl, rfl, rfl, ?_⟩
  · exact Nat.le_add_right _ _
  · refine ⟨Nat.le_add_right _ _, ?_⟩
    change 1 + j ≤ 12
    omega
  · rw [Nat.add_sub_cancel_left]
    exact ⟨Nat.le_add_left _ _, hplace⟩
  · rw [CivilTime.days, Nat.add_sub_cancel_left, Nat.add_sub_cancel_left, Nat.add_sub_cancel]
    exact (hat.position.trans (congrArg _ hday.position)).symm
  · have hdate : daysToYmd days = ((yearLoop days 1970).2,
        (monthLoop (yearLoop days 1970).1 1 (monthDays (yearLoop days 1970).2)).2,
        (monthLoop (yearLoop days 1970).1 1 (monthDays (yearLoop days 1970).2)).1 + 1) := rfl
    rw [hdate, hyear, hmonth]

/-- The time that a timestamp tells, and its place among the others. -/
structure TimestampTold (secs : UInt64) : Prop where
  told : ∃ t : CivilTime, t.Valid ∧ t.seconds = secs.toNat ∧ currentTimestamp secs = t.format
  only : ∀ t : CivilTime, t.Valid → (t.format = currentTimestamp secs ↔ t.seconds = secs.toNat)
  ordered : ∀ later : UInt64, secs < 253402300800 → later < 253402300800 →
    (currentTimestamp secs < currentTimestamp later ↔ secs < later)

theorem currentTimestamp_told (secs : UInt64) : ∃ t : CivilTime, t.Valid ∧
    t.seconds = secs.toNat ∧ currentTimestamp secs = t.format := by
  obtain ⟨t, hvalid, hdays, hhour, hminute, hsecond, hdate⟩ :=
    daysToYmd_spec (secs.toNat / 60 / 60 / 24) (secs.toNat / 60 / 60 % 24) (secs.toNat / 60 % 60)
      (secs.toNat % 60) (Nat.mod_lt _ (by decide)) (Nat.mod_lt _ (by decide))
      (Nat.mod_lt _ (by decide))
  refine ⟨t, hvalid, ?_, ?_⟩
  · rw [CivilTime.seconds, hdays, hhour, hminute, hsecond]
    omega
  · simp only [currentTimestamp, hdate]
    rw [CivilTime.format, hhour, hminute, hsecond]

theorem timestamp_told (secs : UInt64) : TimestampTold secs := by
  obtain ⟨t, hvalid, hseconds, hformat⟩ := currentTimestamp_told secs
  refine ⟨⟨t, hvalid, hseconds, hformat⟩, ?_, ?_⟩
  · intro t' hvalid'
    rw [hformat]
    constructor
    · intro hsame
      rw [CivilTime.format_injective hsame, hseconds]
    · intro hsame
      rw [hvalid'.eq_of_seconds hvalid (hsame.trans hseconds.symm)]
  · intro later hsecs hlater
    obtain ⟨t', hvalid', hseconds', hformat'⟩ := currentTimestamp_told later
    rw [UInt64.lt_iff_toNat_lt] at hsecs hlater
    have hyear := hvalid.year_lt_of_seconds (hseconds ▸ hsecs)
    have hyear' := hvalid'.year_lt_of_seconds (hseconds' ▸ hlater)
    rw [hformat, hformat', hvalid.format_lt_iff hvalid' hyear hyear',
      ← hvalid.seconds_lt_iff hvalid', hseconds, hseconds', UInt64.lt_iff_toNat_lt]

end EnvFingerprint

end AnchorKit
