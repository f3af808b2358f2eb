import WorldPlugins.Proofs.Time.Clock
import WorldPlugins.Proofs.Time.Representable
import WorldPlugins.Time.ZoneTable

/-! # The instants at which clocks show a time

Between two changes a zone has one offset, so its clocks show a time at most once there.  Trying each stretch finds all
instants at which they show it, in ascending order; there are none if the clocks pass over it, and the first of several
is the earliest.
-/

namespace WorldPlugins.Time

namespace Zone

/-- A zone goes by a name: it is the one that the data has under it, or universal time if the data has none. -/
def GoesBy [ZoneData] (zone : Zone) (name : String) : Prop :=
  ZoneData.find? name = some zone ∨ ZoneData.find? name = none ∧ zone = ⟨"UTC", 0, []⟩

theorem goesBy_iff [ZoneData] {zone : Zone} {name : String} : zone.GoesBy name ↔ .ofName name = zone := by
  have hutc : utc = ⟨"UTC", 0, []⟩ := rfl
  unfold GoesBy ofName
  cases ZoneData.find? name with
  | none => simp [hutc, eq_comm]
  | some found => simp

def IsOffset (offset : Int) : Prop := -86400 < offset ∧ offset < 86400

instance (offset : Int) : Decidable (IsOffset offset) := inferInstanceAs (Decidable (_ ∧ _))

/-- The changes of a zone are in the order of time, and its clocks never differ from universal time by a day. -/
structure Proper (z : Zone) : Prop where
  ascending : z.changes.Pairwise fun a b => a.1 < b.1
  offset : IsOffset z.offset
  offsets : ∀ change ∈ z.changes, IsOffset change.2

/-- All zones of the table are proper. -/
theorem proper_of_known : ∀ z ∈ known, z.Proper := by
  have hknown : ∀ z ∈ known, z.changes.Pairwise (fun a b => a.1 < b.1) ∧ IsOffset z.offset ∧
      ∀ change ∈ z.changes, IsOffset change.2 := by decide +kernel
  intro z hz
  obtain ⟨hascending, hoffset, hoffsets⟩ := hknown z hz
  exact ⟨hascending, hoffset, hoffsets⟩

theorem isOffset_offsetAfter {offset : Int} {changes : List (Int × Int)} (hoffset : IsOffset offset)
    (hchanges : ∀ change ∈ changes, IsOffset change.2) (instant : Int) :
    IsOffset (offsetAfter instant offset changes) := by
  induction changes generalizing offset with
  | nil => exact hoffset
  | cons change changes ih =>
    obtain ⟨hnext, hrest⟩ := List.forall_mem_cons.mp hchanges
    rw [offsetAfter]
    split
    · exact hoffset
    · exact ih hnext hrest

theorem Proper.isOffset_offsetAt {z : Zone} (hz : z.Proper) (instant : Int) : IsOffset (z.offsetAt instant) :=
  isOffset_offsetAfter hz.offset hz.offsets instant

/-- Between changes the offset stays. -/
theorem offsetAfter_eq_of_le {t u offset : Int} {changes : List (Int × Int)} (htu : t ≤ u)
    (h : ∀ change ∈ changes, change.1 ≤ t ∨ u < change.1) :
    offsetAfter t offset changes = offsetAfter u offset changes := by
  induction changes generalizing offset with
  | nil => rfl
  | cons change changes ih =>
    obtain ⟨hchange, hrest⟩ := List.forall_mem_cons.mp h
    rw [offsetAfter, offsetAfter]
    rcases hchange with hpast | hfuture
    · rw [if_neg (by omega), if_neg (by omega)]
      exact ih hrest
    · rw [if_pos (by omega), if_pos hfuture]

/-- From a change on, its offset holds. -/
theorem offsetAfter_start {start next offset : Int} {changes : List (Int × Int)}
    (hascending : changes.Pairwise fun a b => a.1 < b.1) (hmem : (start, next) ∈ changes) :
    offsetAfter start offset changes = next := by
  induction changes generalizing offset with
  | nil => exact absurd hmem List.not_mem_nil
  | cons change changes ih =>
    obtain ⟨hfirst, hrest⟩ := List.pairwise_cons.mp hascending
    rw [offsetAfter]
    rcases List.mem_cons.mp hmem with rfl | hlater
    · rw [if_neg (Int.lt_irrefl start)]
      cases changes with
      | nil => rfl
      | cons second changes => exact if_pos (hfirst second List.mem_cons_self)
    · have hpast := hfirst (start, next) hlater
      rw [if_neg (by dsimp only at hpast; omega)]
      exact ih hrest hlater

/-- Among those not before the last change, the instants found are the ones at which clocks show the time. -/
theorem mem_instantsFrom_iff {shown t offset : Int} {since : Option Int} {changes : List (Int × Int)}
    (hascending : changes.Pairwise fun a b => a.1 < b.1) (hsince : ∀ s ∈ since, ∀ change ∈ changes, s < change.1) :
    t ∈ instantsFrom shown since offset changes ↔
      notBefore since t = true ∧ t + offsetAfter t offset changes = shown := by
  -- What is tried first is the stretch up to the first change; all that is found later is not before it.
  induction changes generalizing since offset with
  | nil =>
    rw [instantsFrom, offsetAfter]
    constructor
    · intro ht
      split at ht
      · next hlate =>
        rw [List.mem_singleton] at ht
        subst ht
        exact ⟨hlate, by omega⟩
      · exact absurd ht List.not_mem_nil
    · rintro ⟨hlate, hshown⟩
      have ht : t = shown - offset := by omega
      subst ht
      rw [if_pos hlate]
      exact List.mem_singleton_self _
  | cons change changes ih =>
    obtain ⟨start, next⟩ := change
    obtain ⟨hfirst, hrest⟩ := List.pairwise_cons.mp hascending
    have hlater : t ∈ instantsFrom shown (some start) next changes ↔
        start ≤ t ∧ t + offsetAfter t next changes = shown := by
      rw [ih hrest (by rintro s ⟨⟩; exact hfirst)]
      simp [notBefore]
    have hmem : t ∈ instantsFrom shown since offset ((start, next) :: changes) ↔
        (t = shown - offset ∧ notBefore since t = true ∧ t < start) ∨
          t ∈ instantsFrom shown (some start) next changes := by
      rw [instantsFrom]
      split
      · next hfound =>
        rw [Bool.and_eq_true, decide_eq_true_iff] at hfound
        rw [List.mem_cons]
        constructor
        · rintro (rfl | hmem)
          · exact .inl ⟨rfl, hfound⟩
          · exact .inr hmem
        · rintro (⟨rfl, -⟩ | hmem)
          · exact .inl rfl
          · exact .inr hmem
      · next hnone =>
        rw [Bool.and_eq_true, decide_eq_true_iff] at hnone
        constructor
        · exact .inr
        · rintro (⟨rfl, hfound⟩ | hmem)
          · exact absurd hfound hnone
          · exact hmem
    rw [hmem, hlater, offsetAfter]
    by_cases hearly : t < start
    · rw [if_pos hearly]
      constructor
      · rintro (⟨rfl, hlate, -⟩ | ⟨hstart, -⟩)
        · exact ⟨hlate, by omega⟩
        · omega
      · rintro ⟨hlate, hshown⟩
        exact .inl ⟨by omega, hlate, hearly⟩
    · rw [if_neg hearly]
      constructor
      · rintro (⟨-, -, hstart⟩ | ⟨-, hshown⟩)
        · exact absurd hstart hearly
        · refine ⟨?_, hshown⟩
          cases since with
          | none => rfl
          | some s =>
            have hs := hsince s rfl (start, next) List.mem_cons_self
            exact decide_eq_true (by dsimp only at hs; omega)
      · rintro ⟨-, hshown⟩
        exact .inr ⟨by omega, hshown⟩

theorem pairwise_instantsFrom {shown offset : Int} {since : Option Int} {changes : List (Int × Int)}
    (hascending : changes.Pairwise fun a b => a.1 < b.1) :
    (instantsFrom shown since offset changes).Pairwise (· < ·) := by
  induction changes generalizing since offset with
  | nil =>
    rw [instantsFrom]
    split
    · exact List.pairwise_singleton _ _
    · exact List.Pairwise.nil
  | cons change changes ih =>
    obtain ⟨start, next⟩ := change
    obtain ⟨hfirst, hrest⟩ := List.pairwise_cons.mp hascending
    rw [instantsFrom]
    split
    · next hfound =>
      rw [Bool.and_eq_true, decide_eq_true_iff] at hfound
      refine List.pairwise_cons.mpr ⟨?_, ih hrest⟩
      intro t ht
      have hlater := ((mem_instantsFrom_iff hrest (by rintro s ⟨⟩; exact hfirst)).mp ht).1
      have hstart : start ≤ t := of_decide_eq_true hlater
      omega
    · exact ih hrest

variable {z : Zone}

/-- All instants at which the clocks show a time are found, and no others. -/
theorem Proper.mem_instants_iff (hz : z.Proper) (shown t : Int) :
    t ∈ z.instants shown ↔ t + z.offsetAt t = shown := by
  rw [instants, mem_instantsFrom_iff hz.ascending (by exact nofun), offsetAt]
  exact and_iff_right rfl

theorem Proper.head?_instants_eq_some_iff (hz : z.Proper) (shown t : Int) :
    (z.instants shown).head? = some t ↔
      t + z.offsetAt t = shown ∧ ∀ u, u + z.offsetAt u = shown → t ≤ u := by
  have hsorted : (z.instants shown).Pairwise (· < ·) := pairwise_instantsFrom hz.ascending
  constructor
  · intro hhead
    obtain ⟨rest, hinstants⟩ := List.head?_eq_some_iff.mp hhead
    refine ⟨(hz.mem_instants_iff shown t).mp (List.mem_of_mem_head? hhead), ?_⟩
    intro u hu
    have hmem := (hz.mem_instants_iff shown u).mpr hu
    rw [hinstants] at hmem hsorted
    rcases List.mem_cons.mp hmem with rfl | hrest
    · exact Int.le_refl u
    · exact Int.le_of_lt ((List.pairwise_cons.mp hsorted).1 u hrest)
  · rintro ⟨hshown, hleast⟩
    have hmem := (hz.mem_instants_iff shown t).mpr hshown
    cases hinstants : z.instants shown with
    | nil =>
      rw [hinstants] at hmem
      exact absurd hmem List.not_mem_nil
    | cons first rest =>
      have hfirst : first + z.offsetAt first = shown :=
        (hz.mem_instants_iff shown first).mp (by rw [hinstants]; exact List.mem_cons_self)
      rw [hinstants] at hmem hsorted
      rcases List.mem_cons.mp hmem with rfl | hrest
      · rfl
      · have hlt := (List.pairwise_cons.mp hsorted).1 t hrest
        have hle := hleast first hfirst
        omega

/-- A change puts the clocks forward over a time: they have not come to it when the change begins, and are past it from
then on.  No other change is within two days, so they do not come to it in another way. -/
structure Skips (z : Zone) (start next shown : Int) : Prop where
  change : (start, next) ∈ z.changes
  alone : ∀ other ∈ z.changes, other.1 = start ∨ other.1 ≤ start - 172800 ∨ start + 172800 ≤ other.1
  reached : start + z.offsetAt (start - 1) ≤ shown
  passed : shown < start + next

/-- Clocks never show a time that they skip. -/
theorem Proper.ne_of_skips (hz : z.Proper) {start next shown : Int} (h : z.Skips start next shown) (t : Int) :
    t + z.offsetAt t ≠ shown := by
  intro hshown
  obtain ⟨hwest, heast⟩ := hz.isOffset_offsetAt t
  obtain ⟨hwest', heast'⟩ := hz.isOffset_offsetAt (start - 1)
  obtain ⟨-, hnext⟩ := hz.offsets _ h.change
  have hreached := h.reached
  have hpassed := h.passed
  dsimp only at hnext
  by_cases hbefore : t < start
  · have hsame : z.offsetAt t = z.offsetAt (start - 1) := by
      refine offsetAfter_eq_of_le (by omega) ?_
      intro other hother
      rcases h.alone other hother with hsame | hpast | hfuture
      · right
        omega
      · left
        omega
      · right
        omega
    omega
  · have hsame : z.offsetAt start = z.offsetAt t := by
      refine offsetAfter_eq_of_le (by omega) ?_
      intro other hother
      rcases h.alone other hother with hsame | hpast | hfuture
      · left
        omega
      · left
        omega
      · right
        omega
    have hstart : z.offsetAt start = next := offsetAfter_start hz.ascending h.change
    omega

end Zone

namespace WallClock

open Zone (Proper)

variable {w : WallClock} {z : Zone}

/-- Clocks show a time at the instants that are off from it by their offset. -/
theorem zone_wallClock_eq_iff (h : w.isValid = true) (hsecond : w.second ≤ 59) (t : Int) :
    z.wallClock t = w ↔ t + z.offsetAt t = w.toSeconds := by
  rw [Zone.wallClock, ofSeconds_eq_iff h hsecond]

/-- The instants at which clocks show a time with a year of four digits are in the range of what can be written. -/
theorem Writable.isRepresentable_of_mem (hw : w.Writable) (hz : z.Proper) {t : Int}
    (ht : t ∈ z.instants w.toSeconds) : isRepresentable t = true := by
  have hshown := (hz.mem_instants_iff w.toSeconds t).mp ht
  obtain ⟨hlow, hhigh⟩ := toSeconds_bounds hw.valid hw.nonneg hw.year_le
  obtain ⟨hwest, heast⟩ := hz.isOffset_offsetAt t
  rw [isRepresentable, Bool.and_eq_true, decide_eq_true_iff, decide_eq_true_iff]
  omega

/-- A wall clock time means the first instant at which the clocks show it. -/
theorem Writable.toMoment?_eq_some_iff (hw : w.Writable) (hsecond : w.second ≤ 59) (hz : z.Proper) (m : Moment) :
    w.toMoment? z = some m ↔
      m.nanoseconds = 0 ∧ z.wallClock m.seconds = w ∧ ∀ t, z.wallClock t = w → m.seconds ≤ t := by
  have hrange : (z.instants w.toSeconds).filter isRepresentable = z.instants w.toSeconds :=
    List.filter_eq_self.mpr fun t => hw.isRepresentable_of_mem hz
  have hleap : w.leapNanoseconds = 0 := if_neg (by omega)
  rw [toMoment?, hrange, hleap, Option.map_eq_some_iff]
  simp only [hz.head?_instants_eq_some_iff, ← zone_wallClock_eq_iff hw.valid hsecond]
  constructor
  · rintro ⟨t, ht, rfl⟩
    exact ⟨rfl, ht⟩
  · rintro ⟨hnone, hm⟩
    refine ⟨m.seconds, hm, ?_⟩
    cases m
    cases hnone
    rfl

/-- A wall clock time has a meaning if and only if the clocks show it at some instant. -/
theorem Writable.exists_toMoment?_iff (hw : w.Writable) (hsecond : w.second ≤ 59) (hz : z.Proper) :
    (∃ m, w.toMoment? z = some m) ↔ ∃ t, z.wallClock t = w := by
  constructor
  · rintro ⟨m, hm⟩
    exact ⟨m.seconds, ((hw.toMoment?_eq_some_iff hsecond hz m).mp hm).2.1⟩
  · rintro ⟨t, ht⟩
    have hmem := (hz.mem_instants_iff w.toSeconds t).mpr ((zone_wallClock_eq_iff hw.valid hsecond t).mp ht)
    cases hinstants : z.instants w.toSeconds with
    | nil =>
      rw [hinstants] at hmem
      exact absurd hmem List.not_mem_nil
    | cons first rest =>
      have hhead : (z.instants w.toSeconds).head? = some first := by rw [hinstants, List.head?_cons]
      refine ⟨⟨first, 0⟩, (hw.toMoment?_eq_some_iff hsecond hz _).mpr ⟨rfl, ?_⟩⟩
      simpa only [zone_wallClock_eq_iff hw.valid hsecond] using (hz.head?_instants_eq_some_iff _ _).mp hhead

end WallClock

end WorldPlugins.Time
