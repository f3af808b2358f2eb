import WorldPlugins.Proofs.Text.Integer
import WorldPlugins.Proofs.Time.Calendar
import WorldPlugins.Time.Clock

/-! # What clocks show

Counting seconds and showing them undo each other, but for a leap second, which counts as the second before it.  On a
clock of twelve hours every time of day still looks different: noon and midnight are shown as twelve, and whether it is
before noon is told apart.
-/

namespace WorldPlugins.Time

namespace WallClock

theorem exists_of_isValid {w : WallClock} (h : w.isValid = true) :
    w.date.Exists ∧ w.hour < 24 ∧ w.minute < 60 ∧ w.second ≤ 60 := by
  simp only [isValid, Bool.and_eq_true, decide_eq_true_iff] at h
  exact ⟨Date.exists_of_isValid h.1.1.1, h.1.1.2, h.1.2, h.2⟩

/-- A time is found by its seconds. -/
theorem ofSeconds_toSeconds {w : WallClock} (h : w.isValid = true) :
    ofSeconds w.toSeconds = { w with second := min w.second 59 } := by
  obtain ⟨hdate, hhour, hminute, -⟩ := exists_of_isValid h
  have hdays : w.toSeconds / 86400 = w.date.toDays := by
    rw [toSeconds]
    omega
  have hrest : (w.toSeconds % 86400).toNat = w.hour * 3600 + w.minute * 60 + min w.second 59 := by
    rw [toSeconds]
    omega
  have hhours : (w.hour * 3600 + w.minute * 60 + min w.second 59) / 3600 = w.hour := by omega
  have hminutes : (w.hour * 3600 + w.minute * 60 + min w.second 59) / 60 % 60 = w.minute := by omega
  have hseconds : (w.hour * 3600 + w.minute * 60 + min w.second 59) % 60 = min w.second 59 := by omega
  rw [ofSeconds, hdays, hrest, Date.ofDays_toDays hdate, hhours, hminutes, hseconds]

/-- Every number of seconds is that of a time. -/
theorem toSeconds_ofSeconds (n : Int) : (ofSeconds n).toSeconds = n := by
  have hdays := (Date.toDays_ofDays (n / 86400)).1
  rw [ofSeconds, toSeconds]
  dsimp only
  rw [hdays]
  omega

/-- Only its own seconds are shown as a time, if it is no leap second. -/
theorem ofSeconds_eq_iff {w : WallClock} (h : w.isValid = true) (hsecond : w.second ≤ 59) (n : Int) :
    ofSeconds n = w ↔ n = w.toSeconds := by
  constructor
  · rintro rfl
    exact (toSeconds_ofSeconds n).symm
  · rintro rfl
    rw [ofSeconds_toSeconds h, Nat.min_eq_left hsecond]

/-- A leap second is the second after the one that it counts as. -/
theorem inLeapSecond_ofSeconds {w : WallClock} (h : w.isValid = true) (hsecond : w.second = 60) :
    (ofSeconds w.toSeconds).inLeapSecond = w := by
  rw [ofSeconds_toSeconds h, inLeapSecond]
  cases w
  simp only at hsecond
  simp [hsecond]

end WallClock

theorem toList_padded (width n : Nat) :
    (padded width n).toList = List.replicate (width - (Text.natural n).length) '0' ++ Text.natural n :=
  String.toList_ofList

theorem isDigit_of_mem_padded {width n : Nat} {c : Char} (h : c ∈ (padded width n).toList) : c.isDigit = true := by
  rw [toList_padded] at h
  rcases List.mem_append.mp h with hzero | hdigit
  · rw [List.eq_of_mem_replicate hzero]
    rfl
  · exact Text.isDigit_of_mem_natural hdigit

/-- The zeros before a number make no difference. -/
theorem natural?_padded (width n : Nat) : Text.natural? (padded width n).toList = some n := by
  have hvalue : Nat.ofDigitChars 10 (Text.natural n) 0 = n := Nat.ofDigitChars_ten_toDigits
  refine (Text.natural?_eq_some_iff _ n).mpr ⟨?_, fun c => isDigit_of_mem_padded, ?_⟩
  · rw [toList_padded]
    exact List.append_ne_nil_of_right_ne_nil _ (Text.natural_ne_nil n)
  · rw [toList_padded, Nat.ofDigitChars_append, Nat.ofDigitChars_replicate_zero, Nat.mul_zero, hvalue]

theorem hourOfTwelve_bounds (hour : Nat) : 1 ≤ hourOfTwelve hour ∧ hourOfTwelve hour ≤ 12 := by
  unfold hourOfTwelve
  split
  · omega
  · omega

/-- An hour is told by the one on the display and by whether it is before noon. -/
theorem hour_of_hourOfTwelve {hour : Nat} (h : hour < 24) :
    hour = hourOfTwelve hour % 12 + (if hour < 12 then 0 else 12) := by
  unfold hourOfTwelve
  split
  · split
    · omega
    · omega
  · split
    · omega
    · omega

/-- The hour on the display and the letters after the time tell the hour. -/
private theorem hour_injective {m n : Nat} (hm : m < 24) (hn : n < 24) (htwelve : hourOfTwelve m = hourOfTwelve n)
    (hhalf : (if m < 12 then ['A', 'M'] else ['P', 'M']) = if n < 12 then ['A', 'M'] else ['P', 'M']) : m = n := by
  have hbefore : m < 12 ↔ n < 12 := by
    by_cases hnoon : m < 12
    · by_cases hnoon' : n < 12
      · exact iff_of_true hnoon hnoon'
      · rw [if_pos hnoon, if_neg hnoon'] at hhalf
        exact absurd hhalf (by decide)
    · by_cases hnoon' : n < 12
      · rw [if_neg hnoon, if_pos hnoon'] at hhalf
        exact absurd hhalf (by decide)
      · exact iff_of_false hnoon hnoon'
  rw [hour_of_hourOfTwelve hm, hour_of_hourOfTwelve hn, htwelve]
  simp only [hbefore]

private theorem length_monthName (month : Nat) : (monthName month).toList.length = 3 := by
  unfold monthName
  split <;> rfl

private theorem eq_of_monthName_eq {m n : Nat} (hm : 1 ≤ m ∧ m ≤ 12) (hn : 1 ≤ n ∧ n ≤ 12)
    (h : monthName m = monthName n) : m = n := by
  have hnames : ∀ i ∈ List.range 12, ∀ j ∈ List.range 12, monthName (i + 1) = monthName (j + 1) → i = j := by
    decide
  have hsame := hnames (m - 1) (List.mem_range.mpr (by omega)) (n - 1) (List.mem_range.mpr (by omega))
  rw [Nat.sub_add_cancel hm.1, Nat.sub_add_cancel hn.1] at hsame
  have hindex := hsame h
  omega

/-- Where two texts are the same, so are the runs of digits at their heads and what follows after the same mark. -/
private theorem digits_append_inj {ds es rest others : List Char} {c : Char} (hds : ∀ d ∈ ds, d.isDigit = true)
    (hes : ∀ e ∈ es, e.isDigit = true) (hc : c.isDigit = false) (h : ds ++ c :: rest = es ++ c :: others) :
    ds = es ∧ rest = others := by
  have hrun {digits : List Char} (hdigits : ∀ d ∈ digits, d.isDigit = true) (tail : List Char) :
      (digits ++ c :: tail).takeWhile Char.isDigit = digits := by
    rw [List.takeWhile_append_of_pos hdigits, List.takeWhile_cons_of_neg (ne_true_of_eq_false hc), List.append_nil]
  have hsame : ds = es := by rw [← hrun hds rest, h, hrun hes]
  subst hsame
  exact ⟨rfl, (List.cons_inj_right c).mp (List.append_cancel_left h)⟩

private theorem natural_injective {m n : Nat} (h : Text.natural m = Text.natural n) : m = n := by
  have hread := Text.natural?_natural m
  rw [h, Text.natural?_natural] at hread
  exact (Option.some.inj hread).symm

private theorem padded_injective {width m n : Nat} (h : (padded width m).toList = (padded width n).toList) : m = n := by
  have hread := natural?_padded width m
  rw [h, natural?_padded] at hread
  exact (Option.some.inj hread).symm

namespace WallClock

/-- There is such a time, and its year has four digits. -/
structure Writable (w : WallClock) : Prop where
  valid : w.isValid = true
  nonneg : 0 ≤ w.date.year
  year_le : w.date.year ≤ 9999

theorem Writable.month_bounds {w : WallClock} (h : w.Writable) : 1 ≤ w.date.month ∧ w.date.month ≤ 12 := by
  obtain ⟨⟨k, hk, hmonth, -⟩, -⟩ := exists_of_isValid h.valid
  have hlength : (monthLengths w.date.year).length = 12 := rfl
  omega

theorem Writable.display_eq {w : WallClock} (h : w.Writable) :
    w.display = monthName w.date.month ++ " " ++ Text.showNatural w.date.day ++ ", " ++ padded 4 w.date.year.toNat ++
      " " ++ Text.showNatural (hourOfTwelve w.hour) ++ ":" ++ padded 2 w.minute ++ ":" ++ padded 2 w.second ++
        (if w.hour < 12 then " AM" else " PM") := by
  have hyear : showYear w.date.year = padded 4 w.date.year.toNat := if_pos ⟨h.nonneg, h.year_le⟩
  rw [display, hyear]

theorem Writable.toList_display {w : WallClock} (h : w.Writable) :
    w.display.toList = (monthName w.date.month).toList ++ ' ' :: (Text.natural w.date.day ++ ',' :: ' ' ::
      ((padded 4 w.date.year.toNat).toList ++ ' ' :: (Text.natural (hourOfTwelve w.hour) ++ ':' ::
        ((padded 2 w.minute).toList ++ ':' :: ((padded 2 w.second).toList ++ ' ' ::
          (if w.hour < 12 then ['A', 'M'] else ['P', 'M'])))))) := by
  rw [h.display_eq]
  simp only [String.toList_append, Text.showNatural, String.toList_ofList, List.append_assoc, String.reduceToList,
    List.cons_append, List.nil_append]
  split <;> rfl

/-- No two times have the same display. -/
theorem display_injective {w v : WallClock} (hw : w.Writable) (hv : v.Writable) (h : w.display = v.display) :
    w = v := by
  have htext := hw.toList_display.symm.trans ((congrArg String.toList h).trans hv.toList_display)
  have hnatural {n : Nat} : ∀ d ∈ Text.natural n, d.isDigit = true := fun _ => Text.isDigit_of_mem_natural
  have hpadded {width n : Nat} : ∀ d ∈ (padded width n).toList, d.isDigit = true := fun _ => isDigit_of_mem_padded
  obtain ⟨hmonth, htext⟩ :=
    List.append_inj htext ((length_monthName w.date.month).trans (length_monthName v.date.month).symm)
  obtain ⟨hday, htext⟩ := digits_append_inj hnatural hnatural rfl ((List.cons_inj_right ' ').mp htext)
  obtain ⟨hyear, htext⟩ := digits_append_inj hpadded hpadded rfl ((List.cons_inj_right ' ').mp htext)
  obtain ⟨hhour, htext⟩ := digits_append_inj hnatural hnatural rfl htext
  obtain ⟨hminute, htext⟩ := digits_append_inj hpadded hpadded rfl htext
  obtain ⟨hsecond, hhalf⟩ := digits_append_inj hpadded hpadded rfl htext
  have hmonths : w.date.month = v.date.month :=
    eq_of_monthName_eq hw.month_bounds hv.month_bounds (String.toList_inj.mp hmonth)
  have hyears : w.date.year = v.date.year := by
    have hsame := padded_injective hyear
    have hlow := hw.nonneg
    have hlow' := hv.nonneg
    omega
  have hhours : w.hour = v.hour := by
    obtain ⟨-, hlate, -⟩ := exists_of_isValid hw.valid
    obtain ⟨-, hlate', -⟩ := exists_of_isValid hv.valid
    exact hour_injective hlate hlate' (natural_injective hhour) hhalf
  obtain ⟨⟨year, month, day⟩, hour, minute, second⟩ := w
  obtain ⟨⟨year', month', day'⟩, hour', minute', second'⟩ := v
  cases hmonths
  cases hyears
  cases hhours
  cases natural_injective hday
  cases padded_injective hminute
  cases padded_injective hsecond
  rfl

end WallClock

end WorldPlugins.Time
