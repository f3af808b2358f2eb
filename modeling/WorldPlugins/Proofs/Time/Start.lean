import WorldPlugins.Proofs.Time.Instants
import WorldPlugins.Proofs.Time.Zone

/-! # Start times mean what was typed

A player types a time as the clocks of their zone show it.  It is read as the first instant at which they do, so the
display of that instant is the time that was typed; a time that the clocks skip has no meaning.  An instant with its own
offset is read from that, whatever the zone.
-/

namespace WorldPlugins.Time

open Text (isBlank)

/-- A text is of some form, with blanks before and after it or without. -/
inductive Enters (form : List Char → Prop) (text : String) : Prop
  | mk {before cs after : List Char} (htext : text.toList = before ++ (cs ++ after))
      (hbefore : ∀ c ∈ before, isBlank c = true) (hafter : ∀ c ∈ after, isBlank c = true) (hform : form cs) :
      Enters form text

theorem readStart_of_typed {w : WallClock} {text : String} (h : Enters w.Typed text) (hvalid : w.isValid = true)
    (z : Zone) : readStart text z = w.toMoment? z := by
  obtain ⟨htext, hbefore, hafter, htyped⟩ := h
  rw [readStart, htext, htyped.trimmed.trim_append hbefore hafter, htyped.readInstant_eq_none,
    htyped.readWallClock_eq hvalid]
  rfl

theorem readStart_of_stamped {w : WallClock} {nanoseconds : Nat} {offset : Int} {text : String}
    (h : Enters (w.Stamped nanoseconds offset) text) (hvalid : w.isValid = true) (z : Zone) :
    readStart text z = some ⟨w.toSeconds - offset, w.leapNanoseconds + nanoseconds⟩ := by
  obtain ⟨htext, hbefore, hafter, hstamped⟩ := h
  rw [readStart, htext, hstamped.trimmed.trim_append hbefore hafter, hstamped.readInstant_eq hvalid]

theorem Fraction.lt {fraction : List Char} {nanoseconds : Nat} (h : Fraction fraction nanoseconds) :
    nanoseconds < Moment.second := by
  cases h with
  | none => decide
  | @digits ds hne hdigits =>
    have hvalue : Nat.ofDigitChars 10 ds 0 < 10 ^ ds.length :=
      Text.lt_of_natural? ((Text.natural?_eq_some_iff _ _).mpr ⟨hne, hdigits, rfl⟩)
    have hsecond : Moment.second = 10 ^ 9 := rfl
    rw [hsecond, Nat.div_lt_iff_lt_mul (Nat.pow_pos (by decide)), Nat.mul_comm]
    exact Nat.mul_lt_mul_of_pos_left hvalue (by decide)

/-- On a clock with this offset the instant is the time that was written, a leap second too. -/
theorem wallClock_of_stamped {w : WallClock} {nanoseconds : Nat} {offset : Int} {cs : List Char}
    (h : w.Stamped nanoseconds offset cs) (hvalid : w.isValid = true) (name : String) :
    Moment.wallClock ⟨w.toSeconds - offset, w.leapNanoseconds + nanoseconds⟩ ⟨name, offset, []⟩ = w := by
  obtain ⟨-, -, -, -, -, -, -, -, hfraction, -⟩ := h
  have hlt := hfraction.lt
  have hshown : (⟨name, offset, []⟩ : Zone).wallClock (w.toSeconds - offset) = .ofSeconds w.toSeconds := by
    rw [Zone.wallClock, Zone.offsetAt, Zone.offsetAfter, Int.sub_add_cancel]
  obtain ⟨-, -, -, hsecond⟩ := WallClock.exists_of_isValid hvalid
  unfold Moment.wallClock
  dsimp only
  rw [hshown]
  by_cases hleap : w.second = 60
  · have hlate : Moment.second ≤ w.leapNanoseconds + nanoseconds := by
      rw [WallClock.leapNanoseconds, if_pos hleap]
      exact Nat.le_add_right _ _
    rw [if_pos hlate, WallClock.inLeapSecond_ofSeconds hvalid hleap]
  · have hearly : ¬ Moment.second ≤ w.leapNanoseconds + nanoseconds := by
      rw [WallClock.leapNanoseconds, if_neg hleap]
      omega
    rw [if_neg hearly, WallClock.ofSeconds_eq_iff hvalid (by omega)]

def newYork : Zone := Zone.eastern "America/New_York"

end WorldPlugins.Time
