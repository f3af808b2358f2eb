import Mathlib.Algebra.Order.BigOperators.Group.List
import Mathlib.Algebra.Order.Ring.Nat
import WorldPlugins.Time.Date

/-! # Days and their numbers

Every day has one number and every number is that of one day.  A year takes up as many numbers as its months have days,
so the year of a day is the one whose first day is the last not after it; within the year the months are passed one by
one.
-/

namespace WorldPlugins.Time

theorem sum_monthLengths (year : Int) : (monthLengths year).sum = if isLeapYear year then 366 else 365 := by
  unfold monthLengths
  split <;> rfl

theorem isLeapYear_iff (year : Int) :
    isLeapYear year = true ↔ year % 4 = 0 ∧ (year % 100 ≠ 0 ∨ year % 400 = 0) := by
  simp [isLeapYear]

/-- A year takes up the days of its months. -/
theorem daysBeforeYear_succ (year : Int) :
    daysBeforeYear (year + 1) = daysBeforeYear year + ((monthLengths year).sum : Nat) := by
  rw [sum_monthLengths, daysBeforeYear, daysBeforeYear]
  by_cases hleap : isLeapYear year = true
  · rw [if_pos hleap]
    rw [isLeapYear_iff] at hleap
    omega
  · rw [if_neg hleap]
    rw [isLeapYear_iff] at hleap
    omega

theorem daysBeforeYear_le {first last : Int} (h : first ≤ last) : daysBeforeYear first ≤ daysBeforeYear last := by
  obtain ⟨n, rfl⟩ := Int.le.dest h
  clear h
  induction n with
  | zero => rw [Int.natCast_zero, Int.add_zero]
  | succ n ih =>
    have hnext := daysBeforeYear_succ (first + n)
    rw [Int.natCast_succ, ← Int.add_assoc]
    omega

/-- Four hundred years have 146097 days, and no year is far from where it would be if these were spread evenly. -/
theorem daysBeforeYear_bounds (year : Int) :
    146097 * year - 1200 ≤ 400 * daysBeforeYear year ∧ 400 * daysBeforeYear year ≤ 146097 * year + 1200 := by
  rw [daysBeforeYear]
  omega

namespace Date

/-- The year of a day begins at the latest with it, and the next one begins after it. -/
theorem yearOf_spec (days : Int) :
    daysBeforeYear (yearOf days) ≤ days ∧ days < daysBeforeYear (yearOf days + 1) := by
  unfold yearOf
  dsimp only
  generalize hguess : days * 400 / 146097 = guess
  have hbefore := daysBeforeYear_bounds (guess - 1)
  have hafter := daysBeforeYear_bounds (guess + 1 + 1)
  split
  · next hearly =>
    rw [Int.sub_add_cancel]
    omega
  · next hlate =>
    split
    · next hnext => omega
    · next hsame => omega

theorem yearOf_eq {days year : Int} (hlow : daysBeforeYear year ≤ days) (hhigh : days < daysBeforeYear (year + 1)) :
    yearOf days = year := by
  obtain ⟨hfound, hnext⟩ := yearOf_spec days
  rcases Int.lt_trichotomy (yearOf days) year with hlt | heq | hgt
  · have hle := daysBeforeYear_le (Int.add_one_le_of_lt hlt)
    omega
  · exact heq
  · have hle := daysBeforeYear_le (Int.add_one_le_of_lt hgt)
    omega

/-- Passing over months comes to the month and the day that remain. -/
theorem locate_eq {lengths : List Nat} {k rest : Nat} (hk : k < lengths.length) (hrest : rest < lengths[k])
    (month : Nat) : locate lengths month ((lengths.take k).sum + rest) = (month + k, rest + 1) := by
  induction lengths generalizing k month with
  | nil => exact absurd hk (Nat.not_lt_zero k)
  | cons length lengths ih =>
    cases k with
    | zero =>
      have hfits : rest < length := hrest
      simp [locate, hfits]
    | succ k =>
      have hpast : ¬ length + (lengths.take k).sum + rest < length := by omega
      have hleft : length + (lengths.take k).sum + rest - length = (lengths.take k).sum + rest := by omega
      rw [List.take_succ_cons, List.sum_cons, locate, if_neg hpast, hleft,
        ih (Nat.lt_of_succ_lt_succ hk) hrest (month + 1)]
      congr 1
      omega

/-- A day within some months is in one of them. -/
theorem exists_month {lengths : List Nat} {rest : Nat} (h : rest < lengths.sum) :
    ∃ k day, ∃ hk : k < lengths.length, day < lengths[k] ∧ rest = (lengths.take k).sum + day := by
  induction lengths generalizing rest with
  | nil => exact absurd h (Nat.not_lt_zero rest)
  | cons length lengths ih =>
    by_cases hfits : rest < length
    · exact ⟨0, rest, Nat.zero_lt_succ _, hfits, by simp⟩
    · have hleft : rest - length < lengths.sum := by
        rw [List.sum_cons] at h
        omega
      obtain ⟨k, day, hk, hday, hrest⟩ := ih hleft
      refine ⟨k + 1, day, Nat.succ_lt_succ hk, hday, ?_⟩
      rw [List.take_succ_cons, List.sum_cons]
      omega

/-- The months before one, and the day in it, stay within the year. -/
theorem sum_take_add_lt {lengths : List Nat} {k day : Nat} (hk : k < lengths.length) (hday : day < lengths[k]) :
    (lengths.take k).sum + day < lengths.sum := by
  induction lengths generalizing k with
  | nil => exact absurd hk (Nat.not_lt_zero k)
  | cons length lengths ih =>
    cases k with
    | zero =>
      have hfits : day < length := hday
      simp only [List.take_zero, List.sum_nil, List.sum_cons]
      omega
    | succ k =>
      have hrest := ih (Nat.lt_of_succ_lt_succ hk) hday
      rw [List.take_succ_cons, List.sum_cons, List.sum_cons]
      omega

/-- There is such a day in the calendar, whether or not its year can be written. -/
def Exists (d : Date) : Prop :=
  ∃ k, ∃ hk : k < (monthLengths d.year).length, d.month = k + 1 ∧ 1 ≤ d.day ∧ d.day ≤ (monthLengths d.year)[k]

theorem exists_of_isValid {d : Date} (h : d.isValid = true) : d.Exists := by
  simp only [isValid, Bool.and_eq_true, decide_eq_true_iff] at h
  obtain ⟨⟨-, hfirst⟩, hlast⟩ := h
  unfold monthLength at hlast
  split at hlast
  · omega
  · next k hmonth =>
    rw [List.getD_eq_getElem?_getD] at hlast
    cases hk : (monthLengths d.year)[k]? with
    | none =>
      rw [hk, Option.getD_none] at hlast
      omega
    | some length =>
      rw [hk, Option.getD_some] at hlast
      obtain ⟨hlt, rfl⟩ := List.getElem?_eq_some_iff.mp hk
      exact ⟨k, hlt, hmonth, hfirst, hlast⟩

theorem toDays_eq (year : Int) (k day : Nat) :
    toDays ⟨year, k + 1, day + 1⟩ =
      daysBeforeYear year - epochDays + ((((monthLengths year).take k).sum + day : Nat) : Int) := by
  have hsum : ((monthLengths year).take k).foldr (· + ·) 0 = ((monthLengths year).take k).sum := rfl
  rw [toDays]
  dsimp only
  rw [Nat.add_sub_cancel, hsum]
  omega

/-- A day is found by its number. -/
theorem ofDays_toDays {d : Date} (h : d.Exists) : ofDays d.toDays = d := by
  obtain ⟨k, hk, hmonth, hfirst, hlast⟩ := h
  obtain ⟨year, month, day⟩ := d
  obtain ⟨rest, rfl⟩ : ∃ rest, day = rest + 1 := ⟨day - 1, by dsimp only at hfirst; omega⟩
  dsimp only at hk hmonth hlast
  subst hmonth
  have hrest : rest < (monthLengths year)[k] := hlast
  have hin := sum_take_add_lt hk hrest
  have hnext := daysBeforeYear_succ year
  have hnumber : toDays ⟨year, k + 1, rest + 1⟩ + epochDays =
      daysBeforeYear year + ((((monthLengths year).take k).sum + rest : Nat) : Int) := by
    rw [toDays_eq]
    omega
  have hyear : yearOf (toDays ⟨year, k + 1, rest + 1⟩ + epochDays) = year := by
    apply yearOf_eq
    · omega
    · omega
  have hleft : (toDays ⟨year, k + 1, rest + 1⟩ + epochDays - daysBeforeYear year).toNat =
      ((monthLengths year).take k).sum + rest := by omega
  rw [ofDays]
  dsimp only
  rw [hyear, hleft, locate_eq hk hrest]
  simp only [Nat.add_comm]

/-- Every number is that of a day. -/
theorem toDays_ofDays (n : Int) : (ofDays n).toDays = n ∧ (ofDays n).Exists := by
  obtain ⟨hlow, hhigh⟩ := yearOf_spec (n + epochDays)
  have hnext := daysBeforeYear_succ (yearOf (n + epochDays))
  have hin : (n + epochDays - daysBeforeYear (yearOf (n + epochDays))).toNat <
      (monthLengths (yearOf (n + epochDays))).sum := by omega
  obtain ⟨k, day, hk, hday, hrest⟩ := exists_month hin
  have hdate : ofDays n = ⟨yearOf (n + epochDays), k + 1, day + 1⟩ := by
    rw [ofDays]
    dsimp only
    rw [hrest, locate_eq hk hday]
    simp only [Nat.add_comm]
  rw [hdate]
  refine ⟨?_, k, hk, rfl, Nat.succ_pos day, hday⟩
  rw [toDays_eq]
  omega

end Date

end WorldPlugins.Time
