import WorldPlugins.Proofs.Text.Integer
import WorldPlugins.Proofs.Time.Calendar
import WorldPlugins.Time.Start

/-! # Start times can be stored

Every start time that is read is an instant whose year can be written.  An instant with its own offset has a year of
four digits, so it is far from the ends of the range; of a wall clock time only the instants in the range are taken.
-/

namespace WorldPlugins.Time

open Text (natural?)

/-- The days of a year of four digits. -/
private theorem toDays_bounds {d : Date} (hvalid : d.isValid = true) (hpositive : 0 ≤ d.year) (hyear : d.year ≤ 9999) :
    -719900 ≤ d.toDays ∧ d.toDays ≤ 2933300 := by
  obtain ⟨year, month, day⟩ := d
  obtain ⟨k, hk, hmonth, hfirst, hlast⟩ := Date.exists_of_isValid hvalid
  obtain ⟨rest, rfl⟩ : ∃ rest, day = rest + 1 := ⟨day - 1, by dsimp only at hfirst; omega⟩
  dsimp only at hpositive hyear hmonth
  subst hmonth
  have hin : ((monthLengths year).take k).sum + rest < (monthLengths year).sum := Date.sum_take_add_lt hk hlast
  have hnext := daysBeforeYear_succ year
  have hlow := daysBeforeYear_bounds year
  have hhigh := daysBeforeYear_bounds (year + 1)
  rw [Date.toDays_eq, epochDays]
  omega

theorem toSeconds_bounds {w : WallClock} (hvalid : w.isValid = true) (hpositive : 0 ≤ w.date.year)
    (hyear : w.date.year ≤ 9999) : -62300000000 ≤ w.toSeconds ∧ w.toSeconds ≤ 253500000000 := by
  simp only [WallClock.isValid, Bool.and_eq_true, decide_eq_true_iff] at hvalid
  obtain ⟨⟨⟨hdate, hhour⟩, hminute⟩, hsecond⟩ := hvalid
  have hdays := toDays_bounds hdate hpositive hyear
  rw [WallClock.toSeconds]
  omega

private theorem exactNumber_lt {count n : Nat} {cs rest : List Char} (h : exactNumber count cs = some (n, rest)) :
    n < 10 ^ count := by
  unfold exactNumber at h
  dsimp only at h
  split at h
  · next hlength =>
    obtain ⟨m, hm, hpair⟩ := Option.map_eq_some_iff.mp h
    cases hpair
    rw [← hlength]
    exact Text.lt_of_natural? hm
  · cases h

private theorem readOffset_bounds {cs rest : List Char} {offset : Int} (h : readOffset cs = some (offset, rest)) :
    -86400 < offset ∧ offset < 86400 := by
  unfold readOffset at h
  split at h
  · cases h
  · next c cs =>
    split at h
    · cases h
      decide
    · obtain ⟨west, h⟩ : ∃ west : Bool, ((exactNumber 2 cs).bind fun hours =>
          (oneOf [':'] hours.2).bind fun cs => (exactNumber 2 cs).bind fun minutes =>
            if hours.1 < 24 ∧ minutes.1 < 60 then
              let seconds : Int := ((hours.1 * 3600 + minutes.1 * 60 : Nat) : Int)
              some (if west then -seconds else seconds, minutes.2)
            else none) = some (offset, rest) := by
        split at h
        · exact ⟨false, h⟩
        · split at h
          · exact ⟨true, h⟩
          · cases h
      obtain ⟨⟨hours, cs⟩, -, h⟩ := Option.bind_eq_some_iff.mp h
      obtain ⟨cs, -, h⟩ := Option.bind_eq_some_iff.mp h
      obtain ⟨⟨minutes, cs⟩, -, h⟩ := Option.bind_eq_some_iff.mp h
      dsimp only at h
      split at h
      · next hbounds =>
        cases h
        cases west with
        | true => simp only [if_true]; omega
        | false => simp only [Bool.false_eq_true, if_false]; omega
      · cases h

inductive InstantParts (cs : List Char) (m : Moment) : Prop
  | mk {year month day hour minute second fraction : Nat} {offset : Int}
      {cs₁ cs₂ cs₃ cs₄ cs₅ cs₆ cs₇ cs₈ cs₉ cs₁₀ cs₁₁ cs₁₂ : List Char}
      (hyear : exactNumber 4 cs = some (year, cs₁)) (hyearEnd : oneOf ['-'] cs₁ = some cs₂)
      (hmonth : exactNumber 2 cs₂ = some (month, cs₃)) (hmonthEnd : oneOf ['-'] cs₃ = some cs₄)
      (hday : exactNumber 2 cs₄ = some (day, cs₅)) (hdayEnd : oneOf ['T', 't', ' '] cs₅ = some cs₆)
      (hhour : exactNumber 2 cs₆ = some (hour, cs₇)) (hhourEnd : oneOf [':'] cs₇ = some cs₈)
      (hminute : exactNumber 2 cs₈ = some (minute, cs₉)) (hminuteEnd : oneOf [':'] cs₉ = some cs₁₀)
      (hsecond : exactNumber 2 cs₁₀ = some (second, cs₁₁)) (hfraction : readFraction cs₁₁ = some (fraction, cs₁₂))
      (hoffset : readOffset cs₁₂ = some (offset, []))
      (hvalid : WallClock.isValid ⟨⟨(year : Int), month, day⟩, hour, minute, second⟩ = true)
      (hseconds : m.seconds = WallClock.toSeconds ⟨⟨(year : Int), month, day⟩, hour, minute, second⟩ - offset) :
      InstantParts cs m

theorem instantParts_of_readInstant {cs : List Char} {m : Moment} (h : readInstant cs = some m) :
    InstantParts cs m := by
  unfold readInstant at h
  obtain ⟨⟨year, cs₁⟩, hyear, h⟩ := Option.bind_eq_some_iff.mp h
  obtain ⟨cs₂, hyearEnd, h⟩ := Option.bind_eq_some_iff.mp h
  obtain ⟨⟨month, cs₃⟩, hmonth, h⟩ := Option.bind_eq_some_iff.mp h
  obtain ⟨cs₄, hmonthEnd, h⟩ := Option.bind_eq_some_iff.mp h
  obtain ⟨⟨day, cs₅⟩, hday, h⟩ := Option.bind_eq_some_iff.mp h
  obtain ⟨cs₆, hdayEnd, h⟩ := Option.bind_eq_some_iff.mp h
  obtain ⟨⟨hour, cs₇⟩, hhour, h⟩ := Option.bind_eq_some_iff.mp h
  obtain ⟨cs₈, hhourEnd, h⟩ := Option.bind_eq_some_iff.mp h
  obtain ⟨⟨minute, cs₉⟩, hminute, h⟩ := Option.bind_eq_some_iff.mp h
  obtain ⟨cs₁₀, hminuteEnd, h⟩ := Option.bind_eq_some_iff.mp h
  obtain ⟨⟨second, cs₁₁⟩, hsecond, h⟩ := Option.bind_eq_some_iff.mp h
  obtain ⟨⟨fraction, cs₁₂⟩, hfraction, h⟩ := Option.bind_eq_some_iff.mp h
  obtain ⟨⟨offset, rest⟩, hoffset, h⟩ := Option.bind_eq_some_iff.mp h
  obtain ⟨⟨rfl, hvalid⟩, heq⟩ := Option.ite_none_right_eq_some.mp h
  cases heq
  exact .mk hyear hyearEnd hmonth hmonthEnd hday hdayEnd hhour hhourEnd hminute hminuteEnd hsecond hfraction hoffset
    hvalid rfl

private theorem isRepresentable_of_readInstant {cs : List Char} {m : Moment} (h : readInstant cs = some m) :
    isRepresentable m.seconds = true := by
  obtain ⟨hyear, -, -, -, -, -, -, -, -, -, -, -, hoffset, hvalid, hseconds⟩ := instantParts_of_readInstant h
  have hlt := exactNumber_lt hyear
  obtain ⟨hlow, hhigh⟩ := toSeconds_bounds hvalid (Int.natCast_nonneg _) (by dsimp only; omega)
  obtain ⟨hwest, heast⟩ := readOffset_bounds hoffset
  rw [isRepresentable, hseconds, Bool.and_eq_true, decide_eq_true_iff, decide_eq_true_iff]
  omega

/-- Whatever start time is read can be written. -/
theorem isRepresentable_of_readStart {text : String} {z : Zone} {m : Moment} (h : readStart text z = some m) :
    isRepresentable m.seconds = true := by
  unfold readStart at h
  dsimp only at h
  split at h
  · next hread =>
    cases h
    exact isRepresentable_of_readInstant hread
  · obtain ⟨w, -, hmoment⟩ := Option.bind_eq_some_iff.mp h
    obtain ⟨seconds, hhead, rfl⟩ := Option.map_eq_some_iff.mp hmoment
    exact (List.mem_filter.mp (List.mem_of_mem_head? hhead)).2

theorem isInt64_of_isRepresentable {seconds : Int} (h : isRepresentable seconds = true) : Text.IsInt64 seconds := by
  rw [isRepresentable, Bool.and_eq_true, decide_eq_true_iff, decide_eq_true_iff] at h
  rw [Text.IsInt64]
  omega

end WorldPlugins.Time

namespace WorldPlugins.Attr

/-- An instant that can be written is read back from its attribute, in whole seconds. -/
theorem moment_timestamp (name : String) {seconds : Int} (h : Time.isRepresentable seconds = true) :
    (timestamp name seconds).moment = .ok (.ofSeconds seconds) := by
  have hread : Text.integer? (Text.showInteger seconds).toList = some seconds := by
    rw [Text.showInteger, String.toList_ofList, Text.integer?_integer (Time.isInt64_of_isRepresentable h)]
  have hseconds : (timestamp name seconds).epochSeconds = .ok seconds := by
    simp [epochSeconds, timestamp, expect, number, hread, bind, Except.bind]
  have hmoment : Time.Moment.ofSeconds? seconds = some (.ofSeconds seconds) := if_pos h
  rw [moment, hseconds]
  simp [hmoment, bind, Except.bind, pure, Except.pure]

end WorldPlugins.Attr
