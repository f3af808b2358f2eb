import WorldPlugins.Json.Decoder
import WorldPlugins.Proofs.Json.Numerals

/-! # Written records and lists read back

Reading what the printer wrote, piece by piece: a string, one member of an object, one item of an array.  The
lemmas leave open what follows, so a record is read by chaining its members and a list by induction on its items.
-/

namespace WorldPlugins.Json

open Lexeme Reader
open Text (Raw)

theorem ofChars_quote (s : String) (rest : Raw) :
    Raw.ofChars (quote s) ++ rest =
      some '"' :: (Raw.ofChars (s.toList.flatMap escapeChar) ++ some '"' :: rest) := by
  simp [quote]

theorem ofString_print (v : Json) : Raw.ofString v.print = Raw.ofChars v.chars := by
  simp [Raw.ofString, print]

theorem Decoder.read_string (fuel levels : Nat) (s : String) (rest : Raw) :
    Decoder.string.read fuel levels (Raw.ofChars (quote s) ++ rest) = .ok (s, rest) := by
  rw [ofChars_quote]
  exact literal_escaped s rest

theorem Decoder.read_oneOf {α : Type} {known : List String} {ofName? : String → Option α} {name : String}
    {a : α} (h : ofName? name = some a) (fuel levels : Nat) (rest : Raw) :
    (Decoder.oneOf known ofName?).read fuel levels (Raw.ofChars (quote name) ++ rest) = .ok (a, rest) := by
  rw [ofChars_quote]
  simp [Decoder.oneOf, skipSpace, isSpace, literal_escaped, h, bind, Except.bind, pure, Except.pure]

namespace Field

variable {α σ : Type}

theorem read_make {d : Decoder α} {fuel levels : Nat} {s rest : Raw} {a : α}
    (h : d.read fuel levels s = .ok (a, rest)) (required : Bool) (key : String) (set : α → σ → σ) :
    (make required key d set).read fuel levels s = .ok (set a, rest) := by
  simp [make, Decoder.map, h, bind, Except.bind, pure, Except.pure]

variable {fields : List (Field σ)} {field : Field σ} {key : String} {seen : List String}
variable {fuel levels : Nat} {s rest : Raw} {set : σ → σ}

/-- A member whose key has a field and was not seen yet sets that field. -/
private theorem readMembers_key (hfield : fields.find? (fun f => f.key == key) = some field)
    (hseen : seen.contains key = false) (hread : field.read fuel levels s = .ok (set, rest))
    {first : Bool} {text : Raw}
    (hkey : key? first text =
      .ok (some (Raw.ofChars (key.toList.flatMap escapeChar) ++ some '"' :: some ':' :: s)))
    (steps : Nat) (record : σ) :
    readMembers fields fuel levels (steps + 1) first seen record text =
      readMembers fields fuel levels steps false (key :: seen) (set record) rest := by
  rw [readMembers, hkey]
  simp only [bind, Except.bind, literal_escaped, hfield, hseen]
  simp [colon, skipSpace, isSpace, hread]

theorem readMembers_first (hfield : fields.find? (fun f => f.key == key) = some field)
    (hseen : seen.contains key = false) (hread : field.read fuel levels s = .ok (set, rest))
    (steps : Nat) (record : σ) :
    readMembers fields fuel levels (steps + 1) true seen record
        (Raw.ofChars (quote key) ++ some ':' :: s) =
      readMembers fields fuel levels steps false (key :: seen) (set record) rest := by
  refine readMembers_key hfield hseen hread ?_ steps record
  rw [ofChars_quote]
  simp [key?, skipSpace, isSpace]

theorem readMembers_next (hfield : fields.find? (fun f => f.key == key) = some field)
    (hseen : seen.contains key = false) (hread : field.read fuel levels s = .ok (set, rest))
    (steps : Nat) (record : σ) :
    readMembers fields fuel levels (steps + 1) false seen record
        (some ',' :: (Raw.ofChars (quote key) ++ some ':' :: s)) =
      readMembers fields fuel levels steps false (key :: seen) (set record) rest := by
  refine readMembers_key hfield hseen hread ?_ steps record
  rw [ofChars_quote]
  simp [key?, skipSpace, isSpace]

theorem readMembers_end (fields : List (Field σ)) (fuel levels steps : Nat) (first : Bool)
    (seen : List String) (record : σ) (rest : Raw) :
    readMembers fields fuel levels (steps + 1) first seen record (some '}' :: rest) =
      .ok ((seen, record), some '}' :: rest) := by
  simp [readMembers, key?, skipSpace, isSpace, bind, Except.bind, pure, Except.pure]

end Field

/-- An object is read as a record when its members are and no field is missing. -/
theorem Decoder.read_record {σ : Type} {fields : List (Field σ)} {blank record : σ} {fuel levels : Nat}
    {s rest : Raw} {seen : List String}
    (hmembers : Field.readMembers fields fuel levels fuel true [] blank s =
      .ok ((seen, record), some '}' :: rest))
    (hmissing : Field.missing? fields seen = none) (type : String) :
    (Decoder.record type fields blank).read fuel (levels + 1) (some '{' :: s) = .ok (record, rest) := by
  simp [Decoder.record, skipSpace, isSpace, nested, Decoder.readObject, hmembers, hmissing, closeObject,
    bind, Except.bind, pure, Except.pure]

def StartsItem (cs : List Char) : Prop :=
  ∃ c rest, cs = c :: rest ∧ isSpace c = false ∧ c ≠ ']'

theorem length_lt_moreItemChars (vs : List Json) : vs.length < (moreItemChars vs).length := by
  induction vs with
  | nil => simp [moreItemChars]
  | cons v vs ih => simp [moreItemChars]; omega

theorem length_le_itemChars (vs : List Json) : vs.length ≤ (itemChars vs).length := by
  cases vs with
  | nil => simp
  | cons v vs =>
    have h := length_lt_moreItemChars vs
    simp only [itemChars, List.length_cons, List.length_append]
    omega

theorem delimited_moreItemChars (vs : List Json) (rest : Raw) :
    Delimited (Raw.ofChars (moreItemChars vs) ++ rest) := by
  cases vs with
  | nil => exact .inr (.inl rfl)
  | cons v vs => exact .inl rfl

section Items

variable {α : Type} {read : Raw → Read (α × Raw)} {enc : α → Json}

theorem item?_first {cs : List Char} (h : StartsItem cs) (s : Raw) :
    item? true (Raw.ofChars cs ++ s) = .ok (some (Raw.ofChars cs ++ s)) := by
  obtain ⟨c, rest, rfl, hspace, hclose⟩ := h
  simp [item?, skipSpace, hspace, hclose]

theorem item?_next {cs : List Char} (h : StartsItem cs) (s : Raw) :
    item? false (some ',' :: (Raw.ofChars cs ++ s)) = .ok (some (Raw.ofChars cs ++ s)) := by
  obtain ⟨c, rest, rfl, hspace, hclose⟩ := h
  have hcomma : isSpace ',' = false := by decide
  simp [item?, skipSpace, hspace, hclose, hcomma]

private theorem item?_end (first : Bool) (s : Raw) : item? first (some ']' :: s) = .ok none := by
  simp [item?, skipSpace, isSpace]

private theorem items_more (as : List α) (hstart : ∀ a ∈ as, StartsItem (enc a).chars)
    (hread : ∀ a ∈ as, ∀ rest, Delimited rest → read (Raw.ofChars (enc a).chars ++ rest) = .ok (a, rest))
    (fuel : Nat) (hfuel : as.length < fuel) (rest : Raw) :
    items read fuel false (Raw.ofChars (moreItemChars (as.map enc)) ++ rest) =
      .ok (as, some ']' :: rest) := by
  induction as generalizing fuel with
  | nil =>
    obtain ⟨fuel, rfl⟩ := Nat.exists_eq_succ_of_ne_zero (Nat.ne_of_gt hfuel)
    simp [items, moreItemChars, item?_end, bind, Except.bind, pure, Except.pure]
  | cons a as ih =>
    obtain ⟨fuel, rfl⟩ := Nat.exists_eq_succ_of_ne_zero (Nat.ne_of_gt (Nat.zero_lt_of_lt hfuel))
    have htail := ih (fun b hb => hstart b (List.mem_cons_of_mem a hb))
      (fun b hb => hread b (List.mem_cons_of_mem a hb)) fuel (Nat.lt_of_succ_lt_succ hfuel)
    have hhead := hread a List.mem_cons_self _ (delimited_moreItemChars (as.map enc) rest)
    simp only [List.map_cons, moreItemChars, ofChars_cons, ofChars_append, List.cons_append,
      List.append_assoc, items]
    rw [item?_next (hstart a List.mem_cons_self)]
    simp [hhead, htail, bind, Except.bind, pure, Except.pure]

/-- The items of a written array are read up to its closing bracket. -/
theorem items_written (as : List α) (hstart : ∀ a ∈ as, StartsItem (enc a).chars)
    (hread : ∀ a ∈ as, ∀ rest, Delimited rest → read (Raw.ofChars (enc a).chars ++ rest) = .ok (a, rest))
    (fuel : Nat) (hfuel : as.length < fuel) (rest : Raw) :
    items read fuel true (Raw.ofChars (itemChars (as.map enc)) ++ rest) = .ok (as, some ']' :: rest) := by
  obtain ⟨fuel, rfl⟩ := Nat.exists_eq_succ_of_ne_zero (Nat.ne_of_gt (Nat.zero_lt_of_lt hfuel))
  cases as with
  | nil => simp [items, itemChars, item?_end, bind, Except.bind, pure, Except.pure]
  | cons a as =>
    have htail := items_more as (fun b hb => hstart b (List.mem_cons_of_mem a hb))
      (fun b hb => hread b (List.mem_cons_of_mem a hb)) fuel (Nat.lt_of_succ_lt_succ hfuel) rest
    have hhead := hread a List.mem_cons_self _ (delimited_moreItemChars (as.map enc) rest)
    simp only [List.map_cons, itemChars, ofChars_append, List.append_assoc, items]
    rw [item?_first (hstart a List.mem_cons_self)]
    simp [hhead, htail, bind, Except.bind, pure, Except.pure]

end Items

/-- A written list is read back when its items are. -/
theorem Decoder.read_list {α : Type} {d : Decoder α} {enc : α → Json} {fuel levels : Nat} (as : List α)
    (hstart : ∀ a ∈ as, StartsItem (enc a).chars)
    (hread : ∀ a ∈ as, ∀ rest, Delimited rest →
      d.read fuel levels (Raw.ofChars (enc a).chars ++ rest) = .ok (a, rest))
    (hfuel : as.length < fuel) (rest : Raw) :
    (Decoder.list d).read fuel (levels + 1) (Raw.ofChars (Json.array (as.map enc)).chars ++ rest) =
      .ok (as, rest) := by
  have hitems := items_written as hstart hread fuel hfuel rest
  simp [Decoder.list, chars, skipSpace, nested, arrayOf, hitems, closeArray, isSpace, bind,
    Except.bind, pure, Except.pure]

/-- A whole text is read when the reader uses all of it. -/
theorem Decoder.ofString_eq_ok {α : Type} {d : Decoder α} {s : String} {a : α}
    (h : d.read ((Raw.ofString s).length + 1) deepest (Raw.ofString s) = .ok (a, [])) :
    d.ofString s = .ok a := by
  simp [Decoder.ofString, Decoder.ofRaw, h, finish, skipSpace, bind, Except.bind, pure, Except.pure]

end WorldPlugins.Json
