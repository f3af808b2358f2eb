import WorldPlugins.Proofs.Except
import WorldPlugins.Proofs.Json.Records
import WorldPlugins.Proofs.Keyed

/-! # Free-form values read back

A value that was read nests no deeper than the reader allows, and the members of its objects are in ascending order.
Such a value is read back as it was written if its numbers are whole; a float may be written as one that is read as
another.
-/

namespace WorldPlugins.Json

open Lexeme Reader
open Text (Raw)

inductive Whole : Json → Prop
  | null : Whole .null
  | bool (b : Bool) : Whole (.bool b)
  | number {n : Number} (h : n.IsWhole) : Whole (.number n)
  | string (s : String) : Whole (.string s)
  | array {items : List Json} (h : ∀ item ∈ items, Whole item) : Whole (.array items)
  | object {members : List (String × Json)} (h : ∀ member ∈ members, Whole member.2) : Whole (.object members)

/-- The value nests at most so many levels, and the members of each of its objects are in ascending order of their
keys. -/
inductive Readable : (levels : Nat) → Json → Prop
  | null (levels : Nat) : Readable levels .null
  | bool (levels : Nat) (b : Bool) : Readable levels (.bool b)
  | number (levels : Nat) (n : Number) : Readable levels (.number n)
  | string (levels : Nat) (s : String) : Readable levels (.string s)
  | array {levels : Nat} {items : List Json} (h : ∀ item ∈ items, Readable levels item) :
      Readable (levels + 1) (.array items)
  | object {levels : Nat} {members : Members} (hkeys : Keyed.Ordered members)
      (h : ∀ member ∈ members, Readable levels member.2) : Readable (levels + 1) (.object members)

section Read

variable {α : Type} {read : Raw → Read (α × Raw)} {P : α → Prop} {fuel levels : Nat} {s rest : Raw}

theorem forall_of_items (hread : ∀ s a rest, read s = .ok (a, rest) → P a) {first : Bool} {as : List α}
    (h : items read fuel first s = .ok (as, rest)) : ∀ a ∈ as, P a := by
  induction fuel generalizing first s as with
  | zero => cases h
  | succ fuel ih =>
    obtain ⟨next, -, h⟩ := (bind_eq_ok_iff _ _ _).mp h
    cases next with
    | none =>
      cases h
      exact nofun
    | some t =>
      obtain ⟨⟨a, u⟩, hhead, h⟩ := (bind_eq_ok_iff _ _ _).mp h
      obtain ⟨⟨more, w⟩, htail, h⟩ := (bind_eq_ok_iff _ _ _).mp h
      cases h
      exact List.forall_mem_cons.mpr ⟨hread _ _ _ hhead, ih htail⟩

theorem forall_of_entries (hread : ∀ s a rest, read s = .ok (a, rest) → P a) {first : Bool}
    {members : List (String × α)} (h : entries read fuel first s = .ok (members, rest)) :
    ∀ member ∈ members, P member.2 := by
  induction fuel generalizing first s members with
  | zero => cases h
  | succ fuel ih =>
    obtain ⟨next, -, h⟩ := (bind_eq_ok_iff _ _ _).mp h
    cases next with
    | none =>
      cases h
      exact nofun
    | some t =>
      obtain ⟨⟨key, u⟩, -, h⟩ := (bind_eq_ok_iff _ _ _).mp h
      obtain ⟨v, -, h⟩ := (bind_eq_ok_iff _ _ _).mp h
      obtain ⟨⟨a, w⟩, hhead, h⟩ := (bind_eq_ok_iff _ _ _).mp h
      obtain ⟨⟨more, x⟩, htail, h⟩ := (bind_eq_ok_iff _ _ _).mp h
      cases h
      exact List.forall_mem_cons.mpr ⟨hread _ _ _ hhead, ih htail⟩

/-- What a value is read from. -/
theorem value_cases {v : Json} (h : value fuel levels s = .ok (v, rest)) :
    (v = .null ∧ (skipSpace s).head? = some (some 'n')) ∨ (∃ b, v = .bool b) ∨ (∃ n, v = .number n) ∨
      (∃ t, v = .string t) ∨
      (∃ inner vs text, levels = inner + 1 ∧ v = .array vs ∧
        arrayOf (value fuel inner) fuel text = .ok (vs, rest)) ∨
      ∃ inner members text, levels = inner + 1 ∧ skipSpace s = some '{' :: text ∧
        v = .object (Keyed.ofList members) ∧ objectOf (value fuel inner) fuel text = .ok (members, rest) := by
  unfold value at h
  split at h
  · cases h
  · cases h
  · next c t htext =>
    split at h
    · next hc =>
      obtain ⟨u, -, h⟩ := (bind_eq_ok_iff _ _ _).mp h
      cases h
      exact .inl ⟨rfl, by rw [htext, hc]; rfl⟩
    split at h
    · obtain ⟨u, -, h⟩ := (bind_eq_ok_iff _ _ _).mp h
      cases h
      exact .inr (.inl ⟨true, rfl⟩)
    split at h
    · obtain ⟨u, -, h⟩ := (bind_eq_ok_iff _ _ _).mp h
      cases h
      exact .inr (.inl ⟨false, rfl⟩)
    split at h
    · obtain ⟨⟨text, u⟩, -, h⟩ := (bind_eq_ok_iff _ _ _).mp h
      cases h
      exact .inr (.inr (.inr (.inl ⟨text, rfl⟩)))
    split at h
    · obtain ⟨⟨n, u⟩, -, h⟩ := (bind_eq_ok_iff _ _ _).mp h
      cases h
      exact .inr (.inr (.inl ⟨n, rfl⟩))
    split at h
    · split at h
      · cases h
      · next inner =>
        obtain ⟨⟨vs, u⟩, hvs, h⟩ := (bind_eq_ok_iff _ _ _).mp h
        cases h
        exact .inr (.inr (.inr (.inr (.inl ⟨inner, vs, t, rfl, rfl, hvs⟩))))
    split at h
    · next hc =>
      split at h
      · cases h
      · next inner =>
        obtain ⟨⟨members, u⟩, hmembers, h⟩ := (bind_eq_ok_iff _ _ _).mp h
        cases h
        exact .inr (.inr (.inr (.inr (.inr ⟨inner, members, t, rfl, by rw [htext, hc], rfl, hmembers⟩))))
    · cases h

/-- A value is read in order, and no deeper than it may nest. -/
theorem readable_of_value {v : Json} (h : value fuel levels s = .ok (v, rest)) : Readable levels v := by
  induction levels using Nat.strongRecOn generalizing s v rest with
  | ind levels ih =>
    rcases value_cases h with ⟨rfl, -⟩ | ⟨b, rfl⟩ | ⟨n, rfl⟩ | ⟨t, rfl⟩ | ⟨inner, vs, t, rfl, rfl, hread⟩ |
      ⟨inner, members, t, rfl, -, rfl, hread⟩
    · exact .null _
    · exact .bool _ b
    · exact .number _ n
    · exact .string _ t
    · obtain ⟨⟨items, u⟩, hitems, hread⟩ := (bind_eq_ok_iff _ _ _).mp hread
      obtain ⟨w, -, hread⟩ := (bind_eq_ok_iff _ _ _).mp hread
      cases hread
      exact .array (forall_of_items (fun _ _ _ => ih inner (Nat.lt_succ_self inner)) hitems)
    · obtain ⟨⟨members, u⟩, hmembers, hread⟩ := (bind_eq_ok_iff _ _ _).mp hread
      obtain ⟨w, -, hread⟩ := (bind_eq_ok_iff _ _ _).mp hread
      cases hread
      have hall := forall_of_entries (fun _ _ _ => ih inner (Nat.lt_succ_self inner)) hmembers
      exact .object (Keyed.ordered_ofList members) fun member hmember => hall member (Keyed.mem_of_mem_ofList hmember)

end Read

theorem length_item_lt {v : Json} {items : List Json} (h : v ∈ items) :
    v.chars.length < (moreItemChars items).length := by
  induction items with
  | nil => cases h
  | cons w items ih =>
    rw [moreItemChars, List.length_cons, List.length_append]
    rcases List.mem_cons.mp h with rfl | h
    · omega
    · have hlt := ih h
      omega

theorem length_item_le {v : Json} {items : List Json} (h : v ∈ items) : v.chars.length ≤ (itemChars items).length := by
  cases items with
  | nil => cases h
  | cons w items =>
    rw [itemChars, List.length_append]
    rcases List.mem_cons.mp h with rfl | h
    · omega
    · have hlt := length_item_lt h
      omega

theorem length_member_lt {key : String} {v : Json} {members : List (String × Json)} (h : (key, v) ∈ members) :
    v.chars.length < (moreMemberChars members).length := by
  induction members with
  | nil => cases h
  | cons first members ih =>
    rw [moreMemberChars.eq_def]
    simp only [List.length_cons, List.length_append]
    rcases List.mem_cons.mp h with rfl | h
    · dsimp only
      omega
    · have hlt := ih h
      omega

theorem length_member_le {key : String} {v : Json} {members : List (String × Json)} (h : (key, v) ∈ members) :
    v.chars.length ≤ (memberChars members).length := by
  cases members with
  | nil => cases h
  | cons first members =>
    rw [memberChars.eq_def]
    simp only [List.length_cons, List.length_append]
    rcases List.mem_cons.mp h with rfl | h
    · dsimp only
      omega
    · have hlt := length_member_lt h
      omega

theorem length_lt_moreMemberChars (members : List (String × Json)) :
    members.length < (moreMemberChars members).length := by
  induction members with
  | nil => simp [moreMemberChars]
  | cons first members ih =>
    obtain ⟨key, v⟩ := first
    simp only [moreMemberChars, List.length_cons, List.length_append]
    omega

theorem length_le_memberChars (members : List (String × Json)) : members.length ≤ (memberChars members).length := by
  cases members with
  | nil => simp
  | cons first members =>
    obtain ⟨key, v⟩ := first
    have h := length_lt_moreMemberChars members
    simp only [memberChars, List.length_cons, List.length_append]
    omega

theorem delimited_moreMemberChars (members : List (String × Json)) (rest : Raw) :
    Delimited (Raw.ofChars (moreMemberChars members) ++ rest) := by
  cases members with
  | nil => exact .inr (.inr rfl)
  | cons member members => exact .inl rfl

theorem isSpace_of_startsNumber {c : Char} (h : c = '-' ∨ c.isDigit = true) : isSpace c = false := by
  rw [Bool.eq_false_iff]
  intro hspace
  simp only [isSpace, Bool.or_eq_true, decide_eq_true_eq] at hspace
  rcases hspace with ((rfl | rfl) | rfl) | rfl <;> exact absurd h (by decide)

theorem skipSpace_of_startsNumber {c : Char} (h : c = '-' ∨ c.isDigit = true) (s : Raw) :
    skipSpace (some c :: s) = some c :: s :=
  if_neg (Bool.eq_false_iff.mp (isSpace_of_startsNumber h))

/-- What a value of whole numbers starts with: no blank, nothing that an array ends with, and an `n` only if it is
null. -/
theorem exists_cons_chars {v : Json} (h : Whole v) :
    ∃ c cs, v.chars = c :: cs ∧ isSpace c = false ∧ c ≠ ']' ∧ (c = 'n' → v = .null) := by
  cases h with
  | null => exact ⟨_, _, rfl, by decide, by decide, fun _ => rfl⟩
  | bool b => cases b <;> exact ⟨_, _, rfl, by decide, by decide, fun h => absurd h (by decide)⟩
  | number h =>
    obtain ⟨c, cs, hcs, hc⟩ := exists_cons_numberChars h
    refine ⟨c, cs, by rw [chars, hcs], isSpace_of_startsNumber hc, ?_, ?_⟩
    · rintro rfl
      exact absurd hc (by decide)
    · rintro rfl
      exact absurd hc (by decide)
  | string s => exact ⟨_, _, rfl, by decide, by decide, fun h => absurd h (by decide)⟩
  | array h => exact ⟨_, _, rfl, by decide, by decide, fun h => absurd h (by decide)⟩
  | object h => exact ⟨_, _, rfl, by decide, by decide, fun h => absurd h (by decide)⟩

theorem startsItem_chars {v : Json} (h : Whole v) : StartsItem v.chars := by
  obtain ⟨c, cs, hcs, hspace, hclose, -⟩ := exists_cons_chars h
  exact ⟨c, cs, hcs, hspace, hclose⟩

section Written

variable {read : Raw → Read (Json × Raw)}

private theorem entries_more (members : List (String × Json))
    (hread : ∀ member ∈ members, ∀ rest, Delimited rest →
      read (Raw.ofChars member.2.chars ++ rest) = .ok (member.2, rest))
    (fuel : Nat) (hfuel : members.length < fuel) (rest : Raw) :
    entries read fuel false (Raw.ofChars (moreMemberChars members) ++ rest) = .ok (members, some '}' :: rest) := by
  induction members generalizing fuel with
  | nil =>
    obtain ⟨fuel, rfl⟩ := Nat.exists_eq_succ_of_ne_zero (Nat.ne_of_gt hfuel)
    simp [entries, moreMemberChars, key?, skipSpace, isSpace, bind, Except.bind, pure, Except.pure]
  | cons first members ih =>
    obtain ⟨key, v⟩ := first
    obtain ⟨fuel, rfl⟩ := Nat.exists_eq_succ_of_ne_zero (Nat.ne_of_gt (Nat.zero_lt_of_lt hfuel))
    have hhead := hread (key, v) List.mem_cons_self _ (delimited_moreMemberChars members rest)
    have htail := ih (fun member h => hread member (List.mem_cons_of_mem _ h)) fuel (Nat.lt_of_succ_lt_succ hfuel)
    simp [entries, moreMemberChars, ofChars_quote, key?, skipSpace, isSpace, literal_escaped, colon, hhead, htail,
      bind, Except.bind, pure, Except.pure]

/-- The members of a written object are read up to its closing brace. -/
theorem entries_written (members : List (String × Json))
    (hread : ∀ member ∈ members, ∀ rest, Delimited rest →
      read (Raw.ofChars member.2.chars ++ rest) = .ok (member.2, rest))
    (fuel : Nat) (hfuel : members.length < fuel) (rest : Raw) :
    entries read fuel true (Raw.ofChars (memberChars members) ++ rest) = .ok (members, some '}' :: rest) := by
  obtain ⟨fuel, rfl⟩ := Nat.exists_eq_succ_of_ne_zero (Nat.ne_of_gt (Nat.zero_lt_of_lt hfuel))
  cases members with
  | nil => simp [entries, memberChars, key?, skipSpace, isSpace, bind, Except.bind, pure, Except.pure]
  | cons first members =>
    obtain ⟨key, v⟩ := first
    have hhead := hread (key, v) List.mem_cons_self _ (delimited_moreMemberChars members rest)
    have htail := entries_more members (fun member h => hread member (List.mem_cons_of_mem _ h)) fuel
      (Nat.lt_of_succ_lt_succ hfuel) rest
    simp [entries, memberChars, ofChars_quote, key?, skipSpace, isSpace, literal_escaped, colon, hhead, htail,
      bind, Except.bind, pure, Except.pure]

end Written

private theorem value_numeral {c : Char} (hc : c = '-' ∨ c.isDigit = true) {fuel levels : Nat} {s rest : Raw}
    {n : Number} (hread : numeral (some c :: s) = .ok (n, rest)) :
    value fuel levels (some c :: s) = .ok (.number n, rest) := by
  have hstart : (c = '-' || c.isDigit) = true := by simpa using hc
  have hne {d : Char} (hd : ¬ (d = '-' ∨ d.isDigit = true)) : c ≠ d := fun h => hd (h ▸ hc)
  rw [value, skipSpace_of_startsNumber hc]
  dsimp only
  rw [if_neg (hne (by decide)), if_neg (hne (by decide)), if_neg (hne (by decide)), if_neg (hne (by decide)),
    if_pos hstart, hread]
  rfl

private theorem value_array (fuel levels : Nat) (s : Raw) :
    value fuel (levels + 1) (some '[' :: s) =
      (arrayOf (value fuel levels) fuel s).bind fun read => .ok (.array read.1, read.2) := by
  rw [value]
  rfl

private theorem value_object (fuel levels : Nat) (s : Raw) :
    value fuel (levels + 1) (some '{' :: s) =
      (objectOf (value fuel levels) fuel s).bind fun read => .ok (.object (Keyed.ofList read.1), read.2) := by
  rw [value]
  rfl

/-- A value of whole numbers is read back as it was written. -/
theorem value_written {levels : Nat} {v : Json} (hv : Readable levels v) (hwhole : Whole v) {fuel : Nat}
    (hfuel : v.chars.length ≤ fuel) {rest : Raw} (hrest : Delimited rest) :
    value fuel levels (Raw.ofChars v.chars ++ rest) = .ok (v, rest) := by
  -- The parts of a value are shorter than the value, so the fuel that is enough for it is enough for them.
  induction hv generalizing rest with
  | null levels =>
    simp [value, chars, skipSpace, isSpace, word, bind, Except.bind, pure, Except.pure]
  | bool levels b =>
    cases b <;> simp [value, chars, skipSpace, isSpace, word, bind, Except.bind, pure, Except.pure]
  | number levels n =>
    cases hwhole with
    | number hn =>
      obtain ⟨c, cs, hcs, hc⟩ := exists_cons_numberChars hn
      have hread := numeral_numberChars hn hrest
      rw [chars]
      rw [hcs, ofChars_cons, List.cons_append] at hread ⊢
      exact value_numeral hc hread
  | string levels s =>
    rw [chars, ofChars_quote]
    simp [value, skipSpace, isSpace, literal_escaped, bind, Except.bind, pure, Except.pure]
  | @array levels items h ih =>
    cases hwhole with
    | array hitems =>
      rw [chars, List.length_cons] at hfuel
      have hlength := length_le_itemChars items
      have hitem : ∀ v ∈ items, ∀ rest, Delimited rest →
          value fuel levels (Raw.ofChars v.chars ++ rest) = .ok (v, rest) :=
        fun v hv rest => ih v hv (hitems v hv) (Nat.le_trans (length_item_le hv) (by omega))
      have hread := items_written items (fun v hv => startsItem_chars (hitems v hv)) hitem fuel (by omega) rest
      rw [List.map_id'] at hread
      rw [chars, ofChars_cons, List.cons_append, value_array]
      simp [arrayOf, hread, closeArray, skipSpace, isSpace, bind, Except.bind, pure, Except.pure]
  | @object levels members hkeys h ih =>
    cases hwhole with
    | object hmembers =>
      rw [chars, List.length_cons] at hfuel
      have hlength := length_le_memberChars members
      have hmember : ∀ member ∈ members, ∀ rest, Delimited rest →
          value fuel levels (Raw.ofChars member.2.chars ++ rest) = .ok (member.2, rest) :=
        fun member h rest => ih member h (hmembers member h) (Nat.le_trans (length_member_le h) (by omega))
      have hread := entries_written members hmember fuel (by omega) rest
      rw [chars, ofChars_cons, List.cons_append, value_object]
      simp [objectOf, hread, closeObject, skipSpace, isSpace, Keyed.ofList_of_ordered hkeys, bind, Except.bind, pure,
        Except.pure]

end WorldPlugins.Json
