import WorldPlugins.Proofs.Time.Layouts
import WorldPlugins.Proofs.Time.Representable

/-! # Instants written with their own offset

Such a text has every field in full, perhaps a fraction of a second, and an offset from universal time, so it means the
same instant in every zone.  A time as players type it for their own zone has no offset, and is never taken for one.
-/

namespace WorldPlugins.Time

open Text (natural? isBlank)

structure Fills (count n : Nat) (digits : List Char) : Prop where
  length_eq : digits.length = count
  value : natural? digits = some n

namespace Fills

variable {count n : Nat} {digits : List Char} (h : Fills count n digits)

include h

theorem spells : Spells count n digits := ⟨h.length_eq.le, h.value⟩

theorem exactNumber_append (rest : List Char) : exactNumber count (digits ++ rest) = some (n, rest) := by
  have hread := leadingDigits_length (fun c => h.spells.isDigit) rest
  rw [h.length_eq] at hread
  simp [exactNumber, hread, h.length_eq, h.value]

end Fills

/-- A fraction of a second, and its whole nanoseconds. -/
inductive Fraction : List Char → Nat → Prop
  | none : Fraction [] 0
  | digits {ds : List Char} (hne : ds ≠ []) (hdigits : ∀ d ∈ ds, d.isDigit = true) :
      Fraction ('.' :: ds) (Nat.ofDigitChars 10 ds 0 * 10 ^ 9 / 10 ^ ds.length)

/-- An offset in hours and minutes, and its seconds to the east. -/
inductive Offset : List Char → Int → Prop
  | universal {c : Char} (hc : c = 'Z' ∨ c = 'z') : Offset [c] 0
  | east {hours minutes : Nat} {hour minute : List Char} (hhour : Fills 2 hours hour) (hminute : Fills 2 minutes minute)
      (hhours : hours < 24) (hminutes : minutes < 60) :
      Offset ('+' :: (hour ++ ':' :: minute)) ((hours * 3600 + minutes * 60 : Nat) : Int)
  | west {hours minutes : Nat} {hour minute : List Char} (hhour : Fills 2 hours hour) (hminute : Fills 2 minutes minute)
      (hhours : hours < 24) (hminutes : minutes < 60) :
      Offset ('-' :: (hour ++ ':' :: minute)) (-((hours * 3600 + minutes * 60 : Nat) : Int))

/-- A time is written with a fraction of its second and with the offset of its clock. -/
inductive WallClock.Stamped (w : WallClock) (nanoseconds : Nat) (offset : Int) : List Char → Prop
  | mk {n : Nat} {year month day hour minute second fraction zone : List Char} {mark : Char} (hn : w.date.year = n)
      (hyear : Fills 4 n year) (hmonth : Fills 2 w.date.month month) (hday : Fills 2 w.date.day day)
      (hmark : mark = 'T' ∨ mark = 't' ∨ mark = ' ') (hhour : Fills 2 w.hour hour) (hminute : Fills 2 w.minute minute)
      (hsecond : Fills 2 w.second second) (hfraction : Fraction fraction nanoseconds) (hzone : Offset zone offset) :
      w.Stamped nanoseconds offset (year ++ '-' :: (month ++ '-' :: (day ++ mark :: (hour ++ ':' :: (minute ++ ':' ::
        (second ++ (fraction ++ zone)))))))

/-- The first nine digits of a fraction are its whole nanoseconds. -/
theorem nanosecondsOf_eq {ds : List Char} (hdigits : ∀ d ∈ ds, d.isDigit = true) :
    nanosecondsOf ds = Nat.ofDigitChars 10 ds 0 * 10 ^ 9 / 10 ^ ds.length := by
  rw [nanosecondsOf, List.take_append, List.take_replicate]
  by_cases hshort : ds.length ≤ 9
  · have hpower : (10 : Nat) ^ 9 = 10 ^ (9 - ds.length) * 10 ^ ds.length := by
      rw [← Nat.pow_add, Nat.sub_add_cancel hshort]
    rw [List.take_of_length_le hshort, Nat.ofDigitChars_append, Nat.min_eq_left (Nat.sub_le _ _),
      Nat.ofDigitChars_replicate_zero, hpower, ← Nat.mul_assoc,
      Nat.mul_div_cancel _ (Nat.pow_pos (by decide)), Nat.mul_comm]
  · have hrest : Nat.ofDigitChars 10 (ds.drop 9) 0 < 10 ^ (ds.drop 9).length := by
      refine Text.lt_of_natural? ((Text.natural?_eq_some_iff _ _).mpr ⟨?_, ?_, rfl⟩)
      · rw [ne_eq, List.drop_eq_nil_iff]
        exact hshort
      · exact fun d hd => hdigits d (List.mem_of_mem_drop hd)
    have hlength : ds.length = (ds.drop 9).length + 9 := by
      rw [List.length_drop]
      omega
    have hvalue : Nat.ofDigitChars 10 ds 0 =
        10 ^ (ds.drop 9).length * Nat.ofDigitChars 10 (ds.take 9) 0 + Nat.ofDigitChars 10 (ds.drop 9) 0 := by
      rw [← Nat.ofDigitChars_eq_ofDigitChars_zero, ← Nat.ofDigitChars_append, List.take_append_drop]
    have hzeros : 9 - ds.length = 0 := by omega
    rw [hzeros, Nat.min_eq_left (Nat.zero_le _), List.replicate_zero, List.append_nil, hlength, Nat.pow_add,
      Nat.mul_div_mul_right _ _ (Nat.pow_pos (by decide)), hvalue, Nat.mul_add_div (Nat.pow_pos (by decide)),
      Nat.div_eq_of_lt hrest, Nat.add_zero]

theorem Offset.exists_cons {zone : List Char} {offset : Int} (h : Offset zone offset) :
    ∃ c rest, zone = c :: rest ∧ c.isDigit = false ∧ c ≠ '.' := by
  cases h with
  | universal hc =>
    rcases hc with rfl | rfl
    · exact ⟨'Z', [], rfl, by decide, by decide⟩
    · exact ⟨'z', [], rfl, by decide, by decide⟩
  | east => exact ⟨'+', _, rfl, by decide, by decide⟩
  | west => exact ⟨'-', _, rfl, by decide, by decide⟩

theorem Fraction.readFraction_append {fraction zone : List Char} {nanoseconds : Nat} {offset : Int}
    (h : Fraction fraction nanoseconds) (hzone : Offset zone offset) :
    readFraction (fraction ++ zone) = some (nanoseconds, zone) := by
  obtain ⟨c, rest, rfl, hdigit, hpoint⟩ := hzone.exists_cons
  cases h with
  | none =>
    rw [List.nil_append]
    unfold readFraction
    split
    · next heq =>
      cases heq
      exact absurd rfl hpoint
    · rfl
  | @digits ds hne hdigits =>
    have hread : leadingDigits (ds ++ c :: rest).length (ds ++ c :: rest) = (ds, c :: rest) := by
      refine leadingDigits_of_ends hdigits ?_ (ends_cons hdigit rest)
      rw [List.length_append]
      exact Nat.le_add_right _ _
    rw [List.cons_append, readFraction, hread]
    dsimp only
    rw [if_neg hne, nanosecondsOf_eq hdigits]

theorem Offset.readOffset_eq {zone : List Char} {offset : Int} (h : Offset zone offset) :
    readOffset zone = some (offset, []) := by
  cases h with
  | universal hc => exact if_pos hc
  | @east hours minutes hour minute hhour hminute hhours hminutes =>
    have hlast := hminute.exactNumber_append []
    rw [List.append_nil] at hlast
    simp [readOffset, hhour.exactNumber_append, oneOf, hlast, hhours, hminutes, bind, Option.bind]
  | @west hours minutes hour minute hhour hminute hhours hminutes =>
    have hlast := hminute.exactNumber_append []
    rw [List.append_nil] at hlast
    simp [readOffset, hhour.exactNumber_append, oneOf, hlast, hhours, hminutes, bind, Option.bind]

theorem oneOf_cons {set : List Char} {c : Char} (h : c ∈ set) (cs : List Char) : oneOf set (c :: cs) = some cs :=
  if_pos h

/-- An instant is read as the time on its clock, less the offset of that clock. -/
theorem WallClock.Stamped.readInstant_eq {w : WallClock} {nanoseconds : Nat} {offset : Int} {cs : List Char}
    (h : w.Stamped nanoseconds offset cs) (hvalid : w.isValid = true) :
    readInstant cs = some ⟨w.toSeconds - offset, w.leapNanoseconds + nanoseconds⟩ := by
  obtain ⟨⟨year, month, day⟩, hour, minute, second⟩ := w
  obtain ⟨hn, hyear, hmonth, hday, hmark, hhour, hminute, hsecond, hfraction, hzone⟩ := h
  dsimp only at hn
  subst hn
  have hseparator : ∀ mark : Char, mark = 'T' ∨ mark = 't' ∨ mark = ' ' → mark ∈ ['T', 't', ' '] := by simp
  simp [readInstant, hyear.exactNumber_append, hmonth.exactNumber_append, hday.exactNumber_append,
    hhour.exactNumber_append, hminute.exactNumber_append, hsecond.exactNumber_append, oneOf_cons (hseparator _ hmark),
    oneOf_cons, hfraction.readFraction_append hzone, hzone.readOffset_eq, hvalid, bind, Option.bind]

/-- An instant has no blanks at its ends. -/
theorem WallClock.Stamped.trimmed {w : WallClock} {nanoseconds : Nat} {offset : Int} {cs : List Char}
    (h : w.Stamped nanoseconds offset cs) : Trimmed cs := by
  obtain @⟨n, year, month, day, hour, minute, second, fraction, zone, mark, hn, hyear, -, -, -, -, -, -, -, hzone⟩ := h
  constructor
  · obtain ⟨c, rest, rfl, hc⟩ := hyear.spells.exists_cons
    exact ⟨c, _, rfl, isBlank_of_isDigit hc⟩
  · have hend : ∀ front, ∃ init c, front ++ zone = init ++ [c] ∧ isBlank c = false := by
      intro front
      cases hzone with
      | universal hc =>
        rcases hc with rfl | rfl
        · exact ⟨front, 'Z', rfl, by decide⟩
        · exact ⟨front, 'z', rfl, by decide⟩
      | @east hours minutes hour minute hhour hminute =>
        simpa using hminute.spells.exists_last (front ++ '+' :: (hour ++ [':']))
      | @west hours minutes hour minute hhour hminute =>
        simpa using hminute.spells.exists_last (front ++ '-' :: (hour ++ [':']))
    simpa using hend (year ++ '-' :: (month ++ '-' :: (day ++ mark :: (hour ++ ':' :: (minute ++ ':' ::
      (second ++ fraction))))))

def isOffsetMark (c : Char) : Bool := c = 'Z' || c = 'z' || c = '+' || c = '-' || c = '−'

theorem isOffsetMark_of_isDigit {c : Char} (h : c.isDigit = true) : isOffsetMark c = false := by
  cases hmark : isOffsetMark c with
  | false => rfl
  | true =>
    simp only [isOffsetMark, Bool.or_eq_true, decide_eq_true_iff] at hmark
    rcases hmark with (((rfl | rfl) | rfl) | rfl) | rfl <;> exact absurd h (by decide)

theorem isOffsetMark_of_isBlank {c : Char} (h : isBlank c = true) : isOffsetMark c = false := by
  cases hmark : isOffsetMark c with
  | false => rfl
  | true =>
    simp only [isOffsetMark, Bool.or_eq_true, decide_eq_true_iff] at hmark
    rcases hmark with (((rfl | rfl) | rfl) | rfl) | rfl <;> exact absurd h (by decide)

def offsetMarks (cs : List Char) : Nat := cs.countP isOffsetMark

theorem offsetMarks_append (cs ds : List Char) : offsetMarks (cs ++ ds) = offsetMarks cs + offsetMarks ds :=
  List.countP_append

theorem offsetMarks_cons (c : Char) (cs : List Char) :
    offsetMarks (c :: cs) = offsetMarks cs + if isOffsetMark c then 1 else 0 := List.countP_cons

theorem offsetMarks_eq_zero {cs : List Char} (h : ∀ c ∈ cs, isOffsetMark c = false) : offsetMarks cs = 0 :=
  List.countP_eq_zero.mpr fun c hc => ne_true_of_eq_false (h c hc)

theorem offsetMarks_digits {cs : List Char} (h : ∀ c ∈ cs, c.isDigit = true) : offsetMarks cs = 0 :=
  offsetMarks_eq_zero fun c hc => isOffsetMark_of_isDigit (h c hc)

theorem offsetMarks_exactNumber {count n : Nat} {cs rest : List Char} (h : exactNumber count cs = some (n, rest)) :
    offsetMarks rest = offsetMarks cs := by
  obtain ⟨htext, hdigits⟩ := leadingDigits_spec count cs
  unfold exactNumber at h
  obtain ⟨-, hread⟩ := Option.ite_none_right_eq_some.mp h
  obtain ⟨m, -, heq⟩ := Option.map_eq_some_iff.mp hread
  cases heq
  rw [← htext, offsetMarks_append, offsetMarks_digits hdigits, Nat.zero_add, htext]

theorem oneOf_eq_some_iff {set cs rest : List Char} : oneOf set cs = some rest ↔ ∃ c ∈ set, cs = c :: rest := by
  cases cs with
  | nil => simp [oneOf]
  | cons c cs =>
    rw [oneOf, Option.ite_none_right_eq_some]
    constructor
    · rintro ⟨hc, heq⟩
      cases heq
      exact ⟨c, hc, rfl⟩
    · rintro ⟨d, hd, heq⟩
      cases heq
      exact ⟨hd, rfl⟩

theorem offsetMarks_hyphen {cs rest : List Char} (h : oneOf ['-'] cs = some rest) :
    offsetMarks cs = offsetMarks rest + 1 := by
  obtain ⟨c, hc, rfl⟩ := oneOf_eq_some_iff.mp h
  rw [List.mem_singleton.mp hc, offsetMarks_cons]
  rfl

theorem offsetMarks_oneOf {set cs rest : List Char} (h : oneOf set cs = some rest) :
    offsetMarks rest ≤ offsetMarks cs := by
  obtain ⟨c, -, rfl⟩ := oneOf_eq_some_iff.mp h
  rw [offsetMarks_cons]
  exact Nat.le_add_right _ _

theorem offsetMarks_readFraction {nanoseconds : Nat} {cs rest : List Char}
    (h : readFraction cs = some (nanoseconds, rest)) : offsetMarks rest ≤ offsetMarks cs := by
  unfold readFraction at h
  split at h
  · next tail =>
    obtain ⟨htext, -⟩ := leadingDigits_spec tail.length tail
    dsimp only at h
    split at h
    · cases h
    · cases h
      rw [offsetMarks_cons, ← htext, offsetMarks_append, htext]
      omega
  · cases h
    exact Nat.le_refl _

/-- An offset begins with its mark. -/
theorem offsetMarks_readOffset {offset : Int} {cs rest : List Char} (h : readOffset cs = some (offset, rest)) :
    1 ≤ offsetMarks cs := by
  unfold readOffset at h
  split at h
  · cases h
  · next c tail =>
    have hmark : isOffsetMark c = true := by
      by_cases huniversal : c = 'Z' ∨ c = 'z'
      · rcases huniversal with rfl | rfl <;> rfl
      · rw [if_neg huniversal] at h
        by_cases hplus : c = '+'
        · rw [hplus]
          rfl
        · by_cases hminus : c = '-' ∨ c = '−'
          · rcases hminus with rfl | rfl <;> rfl
          · dsimp only at h
            rw [if_neg hplus, if_neg hminus] at h
            cases h
    rw [offsetMarks_cons, hmark]
    exact Nat.le_add_left 1 _

/-- An instant has two hyphens in its date, and the mark of its offset. -/
theorem offsetMarks_readInstant {cs : List Char} {m : Moment} (h : readInstant cs = some m) :
    3 ≤ offsetMarks cs := by
  obtain ⟨hyear, hyearEnd, hmonth, hmonthEnd, hday, hdayEnd, hhour, hhourEnd, hminute, hminuteEnd, hsecond, hfraction,
    hoffset, -, -⟩ := instantParts_of_readInstant h
  have hyear := offsetMarks_exactNumber hyear
  have hyearEnd := offsetMarks_hyphen hyearEnd
  have hmonth := offsetMarks_exactNumber hmonth
  have hmonthEnd := offsetMarks_hyphen hmonthEnd
  have hday := offsetMarks_exactNumber hday
  have hdayEnd := offsetMarks_oneOf hdayEnd
  have hhour := offsetMarks_exactNumber hhour
  have hhourEnd := offsetMarks_oneOf hhourEnd
  have hminute := offsetMarks_exactNumber hminute
  have hminuteEnd := offsetMarks_oneOf hminuteEnd
  have hsecond := offsetMarks_exactNumber hsecond
  have hfraction := offsetMarks_readFraction hfraction
  have hoffset := offsetMarks_readOffset hoffset
  omega

/-- A time as it is typed has the two hyphens of its date and no other such mark, so it is no instant. -/
theorem WallClock.Typed.readInstant_eq_none {w : WallClock} {cs : List Char} (h : w.Typed cs) :
    readInstant cs = none := by
  have hnumber {most n : Nat} {digits : List Char} (hdigits : Spells most n digits) : offsetMarks digits = 0 :=
    offsetMarks_digits fun c => hdigits.isDigit
  have hcolon (cs : List Char) : offsetMarks (':' :: cs) = offsetMarks cs := offsetMarks_cons ':' cs
  have hdates {date : List Char} (hdate : w.date.Typed date) : offsetMarks date = 2 := by
    obtain ⟨-, hyear, hmonth, hday⟩ := hdate
    have hhyphen (cs : List Char) : offsetMarks ('-' :: cs) = offsetMarks cs + 1 := offsetMarks_cons '-' cs
    rw [offsetMarks_append, hhyphen, offsetMarks_append, hhyphen, hnumber hyear, hnumber hmonth, hnumber hday]
  have hgaps {between : List Char} (hbetween : Between between) : offsetMarks between = 0 := by
    cases hbetween with
    | blanks hne hblanks => exact offsetMarks_eq_zero fun c hc => isOffsetMark_of_isBlank (hblanks c hc)
    | letter => rfl
  have hmarks : offsetMarks cs = 2 := by
    cases h with
    | seconds hdate hbetween hhour hminute hsecond =>
      rw [offsetMarks_append, offsetMarks_append, offsetMarks_append, hcolon, offsetMarks_append, hcolon, hdates hdate,
        hgaps hbetween, hnumber hhour, hnumber hminute, hnumber hsecond]
    | minutes hdate hbetween hhour hminute hsecond =>
      rw [offsetMarks_append, offsetMarks_append, offsetMarks_append, hcolon, hdates hdate, hgaps hbetween,
        hnumber hhour, hnumber hminute]
    | midnight hdate => exact hdates hdate
  cases hread : readInstant cs with
  | none => rfl
  | some m =>
    have hthree := offsetMarks_readInstant hread
    omega

end WorldPlugins.Time
