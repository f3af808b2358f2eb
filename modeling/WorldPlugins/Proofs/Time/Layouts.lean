import WorldPlugins.Proofs.Time.Clock
import WorldPlugins.Time.Start

/-! # Wall clock times as they are typed

A time is typed as a date and, after blanks or a `T`, a time of day with or without seconds; a date alone means
midnight.  The layouts are tried in order, but none gets in the way of another: how many colons and how many `T`s a text
has is enough to tell which of them can read it.
-/

namespace WorldPlugins.Time

open Text (natural? isBlank dropBlanks trim)

theorem isBlank_of_isDigit {c : Char} (h : c.isDigit = true) : isBlank c = false := by
  rw [Char.isDigit, Bool.and_eq_true, decide_eq_true_iff, decide_eq_true_iff] at h
  have hlow : 48 ≤ c.toNat := h.1
  have hhigh : c.toNat ≤ 57 := h.2
  simp only [isBlank, Bool.or_eq_false_iff, Bool.and_eq_false_iff, decide_eq_false_iff_not, beq_eq_false_iff_ne]
  omega

theorem dropBlanks_append {blanks cs : List Char} (h : ∀ c ∈ blanks, isBlank c = true) :
    dropBlanks (blanks ++ cs) = dropBlanks cs := List.dropWhile_append_of_pos h

theorem dropBlanks_cons {c : Char} (h : isBlank c = false) (cs : List Char) : dropBlanks (c :: cs) = c :: cs :=
  List.dropWhile_cons_of_neg (ne_true_of_eq_false h)

structure Trimmed (cs : List Char) : Prop where
  head : ∃ c rest, cs = c :: rest ∧ isBlank c = false
  last : ∃ front c, cs = front ++ [c] ∧ isBlank c = false

/-- What stands between blanks is what remains. -/
theorem Trimmed.trim_append {cs before after : List Char} (h : Trimmed cs) (hbefore : ∀ c ∈ before, isBlank c = true)
    (hafter : ∀ c ∈ after, isBlank c = true) : trim (before ++ (cs ++ after)) = cs := by
  obtain ⟨first, rest, hhead, hfirst⟩ := h.head
  obtain ⟨front, last, hlast, hend⟩ := h.last
  have hstart : dropBlanks (before ++ (cs ++ after)) = cs ++ after := by
    rw [dropBlanks_append hbefore, hhead, List.cons_append, dropBlanks_cons hfirst]
  have hreversed : dropBlanks (cs ++ after).reverse = cs.reverse := by
    have hblanks : ∀ c ∈ after.reverse, isBlank c = true := fun c hc => hafter c (List.mem_reverse.mp hc)
    rw [List.reverse_append, dropBlanks_append hblanks, hlast, List.reverse_append, List.reverse_singleton,
      List.singleton_append, dropBlanks_cons hend]
  rw [trim, hstart, hreversed, List.reverse_reverse]

/-- A number is written with some digits, at most so many of them. -/
structure Spells (most n : Nat) (digits : List Char) : Prop where
  length_le : digits.length ≤ most
  value : natural? digits = some n

namespace Spells

variable {most n : Nat} {digits : List Char} (h : Spells most n digits)

include h

theorem isDigit {c : Char} (hc : c ∈ digits) : c.isDigit = true := ((Text.natural?_eq_some_iff _ _).mp h.value).2.1 c hc

theorem ne_nil : digits ≠ [] := ((Text.natural?_eq_some_iff _ _).mp h.value).1

theorem exists_cons : ∃ c rest, digits = c :: rest ∧ c.isDigit = true := by
  obtain ⟨c, rest, hdigits⟩ := List.exists_cons_of_ne_nil h.ne_nil
  exact ⟨c, rest, hdigits, h.isDigit (hdigits ▸ List.mem_cons_self)⟩

/-- No blanks stand before a number. -/
theorem dropBlanks_append (rest : List Char) : dropBlanks (digits ++ rest) = digits ++ rest := by
  obtain ⟨c, tail, rfl, hc⟩ := h.exists_cons
  exact dropBlanks_cons (isBlank_of_isDigit hc) (tail ++ rest)

/-- A text that ends with a number ends with no blank. -/
theorem exists_last (front : List Char) : ∃ init c, front ++ digits = init ++ [c] ∧ isBlank c = false := by
  refine ⟨front ++ digits.dropLast, digits.getLast h.ne_nil, ?_, ?_⟩
  · rw [List.append_assoc, List.dropLast_concat_getLast]
  · exact isBlank_of_isDigit (h.isDigit (List.getLast_mem h.ne_nil))

end Spells

def Ends (rest : List Char) : Prop := ∀ c ∈ rest.head?, c.isDigit = false

theorem leadingDigits_of_ends {most : Nat} {digits rest : List Char} (hdigits : ∀ c ∈ digits, c.isDigit = true)
    (hmost : digits.length ≤ most) (hrest : Ends rest) : leadingDigits most (digits ++ rest) = (digits, rest) := by
  induction digits generalizing most with
  | nil =>
    cases most with
    | zero => rfl
    | succ most =>
      cases rest with
      | nil => rfl
      | cons c rest =>
        have hc : c.isDigit = false := hrest c rfl
        simp [leadingDigits, hc]
  | cons d digits ih =>
    obtain ⟨hd, hothers⟩ := List.forall_mem_cons.mp hdigits
    cases most with
    | zero => exact absurd hmost (Nat.not_succ_le_zero _)
    | succ most =>
      have hread := ih hothers (Nat.le_of_succ_le_succ hmost)
      simp [leadingDigits, hd, hread]

/-- Digits are read up to the number of them that may be read. -/
theorem leadingDigits_length {digits : List Char} (hdigits : ∀ c ∈ digits, c.isDigit = true) (rest : List Char) :
    leadingDigits digits.length (digits ++ rest) = (digits, rest) := by
  induction digits with
  | nil => rfl
  | cons d digits ih =>
    obtain ⟨hd, hothers⟩ := List.forall_mem_cons.mp hdigits
    simp [leadingDigits, hd, ih hothers]

/-- What is read and what is left are the text. -/
theorem leadingDigits_spec (most : Nat) (cs : List Char) :
    (leadingDigits most cs).1 ++ (leadingDigits most cs).2 = cs ∧
      ∀ c ∈ (leadingDigits most cs).1, c.isDigit = true := by
  induction most generalizing cs with
  | zero => exact ⟨rfl, nofun⟩
  | succ most ih =>
    cases cs with
    | nil => exact ⟨rfl, nofun⟩
    | cons c cs =>
      obtain ⟨htext, hdigits⟩ := ih cs
      unfold leadingDigits
      split
      · next hc =>
        refine ⟨congrArg (c :: ·) htext, ?_⟩
        exact List.forall_mem_cons.mpr ⟨hc, hdigits⟩
      · exact ⟨rfl, nofun⟩

theorem Spells.leadingNumber_append {most n : Nat} {digits rest : List Char} (h : Spells most n digits)
    (hrest : Ends rest) : leadingNumber most (digits ++ rest) = some (n, rest) := by
  have hread := leadingDigits_of_ends (fun c => h.isDigit) h.length_le hrest
  simp [leadingNumber, hread, h.value]

theorem Spells.leadingYear_append {n : Nat} {digits rest : List Char} (h : Spells 4 n digits) (hrest : Ends rest) :
    leadingYear (digits ++ rest) = some ((n : Int), rest) := by
  have hread := h.leadingNumber_append hrest
  obtain ⟨c, tail, rfl, hc⟩ := h.exists_cons
  rw [List.cons_append] at hread ⊢
  unfold leadingYear
  split
  · next heq =>
    cases heq
    exact absurd hc (by decide)
  · next heq =>
    cases heq
    exact absurd hc (by decide)
  · rw [hread]
    rfl

/-- What stands between a date and a time of day: blanks, or a `T`. -/
inductive Between : List Char → Prop
  | blanks {cs : List Char} (hne : cs ≠ []) (hblanks : ∀ c ∈ cs, isBlank c = true) : Between cs
  | letter : Between ['T']

inductive Date.Typed (d : Date) : List Char → Prop
  | mk {n : Nat} {year month day : List Char} (hn : d.year = n) (hyear : Spells 4 n year)
      (hmonth : Spells 2 d.month month) (hday : Spells 2 d.day day) : d.Typed (year ++ '-' :: (month ++ '-' :: day))

/-- A time is typed with its seconds, or without them if there are none, or as a date if it is midnight. -/
inductive WallClock.Typed (w : WallClock) : List Char → Prop
  | seconds {date between hour minute second : List Char} (hdate : w.date.Typed date) (hbetween : Between between)
      (hhour : Spells 2 w.hour hour) (hminute : Spells 2 w.minute minute) (hsecond : Spells 2 w.second second) :
      w.Typed (date ++ (between ++ (hour ++ ':' :: (minute ++ ':' :: second))))
  | minutes {date between hour minute : List Char} (hdate : w.date.Typed date) (hbetween : Between between)
      (hhour : Spells 2 w.hour hour) (hminute : Spells 2 w.minute minute) (hsecond : w.second = 0) :
      w.Typed (date ++ (between ++ (hour ++ ':' :: minute)))
  | midnight {date : List Char} (hdate : w.date.Typed date) (hhour : w.hour = 0) (hminute : w.minute = 0)
      (hsecond : w.second = 0) : w.Typed date

theorem readPieces_mark (c : Char) (pieces : List Piece) (w : WallClock) (cs : List Char) :
    readPieces (.mark c :: pieces) w (c :: cs) = readPieces pieces w cs := by
  simp [readPieces, Piece.read, bind, Option.bind]

theorem readPieces_number (part : Part) (hpart : part ≠ .year) {n : Nat} {digits rest : List Char}
    (h : Spells 2 n digits) (hrest : Ends rest) (pieces : List Piece) (w : WallClock) :
    readPieces (.number part :: pieces) w (digits ++ rest) = readPieces pieces (w.set n part) rest := by
  have hread := h.leadingNumber_append hrest
  cases part with
  | year => exact absurd rfl hpart
  | _ => simp [readPieces, Piece.read, h.dropBlanks_append, hread, bind, Option.bind]

theorem readPieces_year {n : Nat} {digits rest : List Char} (h : Spells 4 n digits) (hrest : Ends rest)
    (pieces : List Piece) (w : WallClock) :
    readPieces (.number .year :: pieces) w (digits ++ rest) = readPieces pieces (w.set n .year) rest := by
  simp [readPieces, Piece.read, h.dropBlanks_append, h.leadingYear_append hrest, WallClock.set, bind, Option.bind]

theorem ends_nil : Ends [] := nofun

theorem ends_cons {c : Char} (h : c.isDigit = false) (cs : List Char) : Ends (c :: cs) := by
  rintro d ⟨⟩
  exact h

theorem readPieces_date {d : Date} {date rest : List Char} (h : d.Typed date) (hrest : Ends rest)
    (pieces : List Piece) (w : WallClock) :
    readPieces (dateLayout ++ pieces) w (date ++ rest) = readPieces pieces { w with date := d } rest := by
  obtain ⟨hn, hyear, hmonth, hday⟩ := h
  obtain ⟨year, month, day⟩ := d
  dsimp only at hn hmonth hday
  subst hn
  simp only [dateLayout, List.cons_append, List.append_assoc, List.nil_append]
  rw [readPieces_year hyear (ends_cons rfl _), readPieces_mark, readPieces_number .month nofun hmonth (ends_cons rfl _),
    readPieces_mark, readPieces_number .day nofun hday hrest]
  rfl

theorem readPieces_minute {w : WallClock} {hours minutes : Nat} {hour minute rest : List Char}
    (hhour : Spells 2 hours hour) (hminute : Spells 2 minutes minute) (hrest : Ends rest) (pieces : List Piece) :
    readPieces (minuteLayout ++ pieces) w (hour ++ ':' :: (minute ++ rest)) =
      readPieces pieces { w with hour := hours, minute := minutes } rest := by
  simp only [minuteLayout, List.cons_append, List.nil_append]
  rw [readPieces_number .hour nofun hhour (ends_cons rfl _), readPieces_mark,
    readPieces_number .minute nofun hminute hrest]
  rfl

theorem readPieces_second {w : WallClock} {hours minutes seconds : Nat} {hour minute second : List Char}
    (hhour : Spells 2 hours hour) (hminute : Spells 2 minutes minute) (hsecond : Spells 2 seconds second) :
    readPieces secondLayout w (hour ++ ':' :: (minute ++ ':' :: second)) =
      some { w with hour := hours, minute := minutes, second := seconds } := by
  have hlast := readPieces_number .second nofun hsecond ends_nil []
    { w with hour := hours, minute := minutes }
  rw [List.append_nil] at hlast
  rw [secondLayout, readPieces_minute hhour hminute (ends_cons rfl _), readPieces_mark, hlast]
  rfl

theorem readPieces_between {between hour : List Char} (h : Between between) {n : Nat} (hhour : Spells 2 n hour)
    (rest : List Char) :
    ∃ piece, (piece = .gap ∨ piece = .mark 'T') ∧ ∀ pieces w,
      readPieces (piece :: pieces) w (between ++ (hour ++ rest)) = readPieces pieces w (hour ++ rest) := by
  cases h with
  | blanks hne hblanks =>
    refine ⟨.gap, .inl rfl, ?_⟩
    intro pieces w
    simp [readPieces, Piece.read, dropBlanks_append hblanks, hhour.dropBlanks_append, bind, Option.bind]
  | letter =>
    refine ⟨.mark 'T', .inr rfl, ?_⟩
    intro pieces w
    exact readPieces_mark 'T' pieces w (hour ++ rest)

theorem Between.ends {between : List Char} (h : Between between) (rest : List Char) : Ends (between ++ rest) := by
  cases h with
  | blanks hne hblanks =>
    obtain ⟨c, tail, rfl⟩ := List.exists_cons_of_ne_nil hne
    refine ends_cons (Bool.eq_false_iff.mpr ?_) (tail ++ rest)
    intro hdigit
    exact absurd (hblanks c List.mem_cons_self) (ne_true_of_eq_false (isBlank_of_isDigit hdigit))
  | letter => exact ends_cons rfl rest

/-- A character that stands in a text only where a layout has it as a mark: no part of a number, and no blank. -/
structure Telling (c : Char) : Prop where
  not_digit : c.isDigit = false
  not_blank : isBlank c = false
  not_plus : c ≠ '+'
  not_minus : c ≠ '-'

theorem telling_colon : Telling ':' := by
  constructor <;> decide

theorem telling_letter : Telling 'T' := by
  constructor <;> decide

section

variable {c : Char} (hc : Telling c)

include hc

theorem Telling.count_digits {digits : List Char} (h : ∀ d ∈ digits, d.isDigit = true) : digits.count c = 0 := by
  rw [List.count_eq_zero]
  intro hmem
  exact absurd (h c hmem) (ne_true_of_eq_false hc.not_digit)

theorem Telling.count_dropBlanks (cs : List Char) : (dropBlanks cs).count c = cs.count c := by
  induction cs with
  | nil => rfl
  | cons d cs ih =>
    by_cases hd : isBlank d = true
    · have hne : d ≠ c := by
        rintro rfl
        exact absurd hd (ne_true_of_eq_false hc.not_blank)
      rw [← List.singleton_append, dropBlanks_append (List.forall_mem_singleton.mpr hd), ih, List.singleton_append,
        List.count_cons_of_ne hne]
    · rw [dropBlanks_cons (Bool.eq_false_iff.mpr hd)]

theorem Telling.count_leadingNumber {most n : Nat} {cs rest : List Char} (h : leadingNumber most cs = some (n, rest)) :
    rest.count c = cs.count c := by
  obtain ⟨htext, hdigits⟩ := leadingDigits_spec most cs
  obtain ⟨m, -, hread⟩ := Option.map_eq_some_iff.mp h
  cases hread
  rw [← htext, List.count_append, hc.count_digits hdigits, Nat.zero_add, htext]

theorem Telling.count_leadingYear {year : Int} {cs rest : List Char} (h : leadingYear cs = some (year, rest)) :
    rest.count c = cs.count c := by
  unfold leadingYear at h
  split at h
  · obtain ⟨⟨n, tail⟩, hread, heq⟩ := Option.map_eq_some_iff.mp h
    cases heq
    rw [List.count_cons_of_ne hc.not_minus.symm, hc.count_leadingNumber hread]
  · obtain ⟨⟨n, tail⟩, hread, heq⟩ := Option.map_eq_some_iff.mp h
    cases heq
    rw [List.count_cons_of_ne hc.not_plus.symm, hc.count_leadingNumber hread]
  · obtain ⟨⟨n, tail⟩, hread, heq⟩ := Option.map_eq_some_iff.mp h
    cases heq
    exact hc.count_leadingNumber hread

/-- A piece takes the character out of the text only if it is that mark. -/
theorem Telling.count_read {piece : Piece} {w v : WallClock} {cs rest : List Char}
    (h : piece.read cs w = some (v, rest)) : cs.count c = rest.count c + [piece].count (.mark c) := by
  cases piece with
  | gap =>
    cases h
    rw [hc.count_dropBlanks]
    rfl
  | mark d =>
    cases cs with
    | nil => cases h
    | cons e cs =>
      rw [Piece.read] at h
      obtain ⟨rfl, heq⟩ := Option.ite_none_right_eq_some.mp h
      cases heq
      simp [List.count_cons]
  | number part =>
    have hnone : [Piece.number part].count (.mark c) = 0 := rfl
    rw [hnone, Nat.add_zero]
    cases part with
    | year =>
      obtain ⟨⟨year, tail⟩, hread, heq⟩ := Option.map_eq_some_iff.mp h
      cases heq
      rw [hc.count_leadingYear hread, hc.count_dropBlanks]
    | _ =>
      obtain ⟨⟨n, tail⟩, hread, heq⟩ := Option.map_eq_some_iff.mp h
      cases heq
      rw [hc.count_leadingNumber hread, hc.count_dropBlanks]

/-- A text that is read has the character as often as its layout has it as a mark. -/
theorem Telling.count_readPieces {pieces : List Piece} {w v : WallClock} {cs : List Char}
    (h : readPieces pieces w cs = some v) : cs.count c = pieces.count (.mark c) := by
  induction pieces generalizing w cs with
  | nil =>
    rw [readPieces] at h
    obtain ⟨rfl, -⟩ := Option.ite_none_right_eq_some.mp h
    rfl
  | cons piece pieces ih =>
    obtain ⟨⟨u, rest⟩, hread, hrest⟩ := Option.bind_eq_some_iff.mp h
    rw [hc.count_read hread, ih hrest, List.count_cons, List.count_cons, List.count_nil, Nat.zero_add]

end

/-- No text can be read by two layouts. -/
theorem layout_unique {cs : List Char} {first second : List Piece} {w v : WallClock} (hfirst : first ∈ layouts)
    (hsecond : second ∈ layouts) (hw : readLayout cs first = some w) (hv : readLayout cs second = some v) :
    first = second := by
  have hcount {layout : List Piece} {u : WallClock} (hread : readLayout cs layout = some u) {c : Char}
      (hc : Telling c) : cs.count c = layout.count (.mark c) :=
    hc.count_readPieces (Option.filter_eq_some_iff.mp hread).1
  have hcolons := (hcount hw telling_colon).symm.trans (hcount hv telling_colon)
  have hletters := (hcount hw telling_letter).symm.trans (hcount hv telling_letter)
  have hmarks : ∀ a ∈ layouts, ∀ b ∈ layouts, a.count (.mark ':') = b.count (.mark ':') →
      a.count (.mark 'T') = b.count (.mark 'T') → a = b := by decide
  exact hmarks first hfirst second hsecond hcolons hletters

theorem readWallClock_of_layout {cs : List Char} {layout : List Piece} {w : WallClock} (hlayout : layout ∈ layouts)
    (h : readLayout cs layout = some w) : readWallClock cs = some w := by
  have hsome : (layouts.findSome? (readLayout cs)).isSome = true :=
    List.findSome?_isSome_iff.mpr ⟨layout, hlayout, by rw [h]; rfl⟩
  obtain ⟨v, hv⟩ := Option.isSome_iff_exists.mp hsome
  obtain ⟨found, hfound, hread⟩ := List.exists_of_findSome?_eq_some hv
  cases layout_unique hfound hlayout hread h
  cases hread.symm.trans h
  exact hv

namespace WallClock.Typed

variable {w : WallClock} {cs : List Char}

/-- A time that is typed is read by one of the layouts. -/
theorem exists_layout (h : w.Typed cs) : ∃ layout ∈ layouts, readPieces layout ⟨⟨0, 0, 0⟩, 0, 0, 0⟩ cs = some w := by
  obtain ⟨date, hours, minutes, seconds⟩ := w
  cases h with
  | @seconds _ between hour minute second hdate hbetween hhour hminute hsecond =>
    obtain ⟨piece, hpiece, hread⟩ := readPieces_between hbetween hhour (':' :: (minute ++ ':' :: second))
    refine ⟨dateLayout ++ piece :: secondLayout, ?_, ?_⟩
    · rcases hpiece with rfl | rfl <;> simp [layouts]
    · rw [readPieces_date hdate (hbetween.ends _), hread, readPieces_second hhour hminute hsecond]
  | @minutes _ between hour minute hdate hbetween hhour hminute hsecond =>
    obtain ⟨piece, hpiece, hread⟩ := readPieces_between hbetween hhour (':' :: minute)
    refine ⟨dateLayout ++ piece :: minuteLayout, ?_, ?_⟩
    · rcases hpiece with rfl | rfl <;> simp [layouts]
    · have hminutes := readPieces_minute (w := ⟨date, 0, 0, 0⟩) hhour hminute ends_nil []
      rw [List.append_nil, List.append_nil] at hminutes
      dsimp only at hsecond
      rw [readPieces_date hdate (hbetween.ends _), hread, hminutes, hsecond]
      rfl
  | midnight hdate hhour hminute hsecond =>
    refine ⟨dateLayout, by simp [layouts], ?_⟩
    have hdates := readPieces_date hdate ends_nil [] ⟨⟨0, 0, 0⟩, 0, 0, 0⟩
    rw [List.append_nil, List.append_nil] at hdates
    dsimp only at hhour hminute hsecond
    rw [hdates, hhour, hminute, hsecond]
    rfl

/-- A time that is typed is read as it was meant. -/
theorem readWallClock_eq (h : w.Typed cs) (hvalid : w.isValid = true) : readWallClock cs = some w := by
  obtain ⟨layout, hlayout, hread⟩ := h.exists_layout
  exact readWallClock_of_layout hlayout (Option.filter_eq_some_iff.mpr ⟨hread, hvalid⟩)

/-- A typed time has no blanks at its ends. -/
theorem trimmed (h : w.Typed cs) : Trimmed cs := by
  have hhead {date : List Char} (hdate : w.date.Typed date) (rest : List Char) :
      ∃ c tail, date ++ rest = c :: tail ∧ isBlank c = false := by
    obtain ⟨-, hyear, -, -⟩ := hdate
    obtain ⟨c, tail, rfl, hc⟩ := hyear.exists_cons
    exact ⟨c, _, rfl, isBlank_of_isDigit hc⟩
  have hlast {digits : List Char} {n : Nat} (hdigits : Spells 2 n digits) (front : List Char) :
      ∃ init c, front ++ digits = init ++ [c] ∧ isBlank c = false := hdigits.exists_last front
  cases h with
  | @seconds date between hour minute second hdate hbetween hhour hminute hsecond =>
    refine ⟨hhead hdate _, ?_⟩
    simpa using hlast hsecond (date ++ (between ++ (hour ++ ':' :: (minute ++ [':']))))
  | @minutes date between hour minute hdate hbetween hhour hminute hsecond =>
    refine ⟨hhead hdate _, ?_⟩
    simpa using hlast hminute (date ++ (between ++ (hour ++ [':'])))
  | midnight hdate hhour hminute hsecond =>
    refine ⟨?_, ?_⟩
    · simpa using hhead hdate []
    · obtain @⟨n, year, month, day, hn, hyear, hmonth, hday⟩ := hdate
      simpa using hlast hday (year ++ '-' :: (month ++ ['-']))

end WallClock.Typed

end WorldPlugins.Time
