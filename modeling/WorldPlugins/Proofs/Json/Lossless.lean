import Mathlib.Data.List.Forall2
import WorldPlugins.Proofs.Json.Values

/-! # Lossless shapes

A shape is read from text and written as a value.  What is read of it fits: it nests no deeper than the reader allows,
and the like.  What fits and holds only whole numbers is read back as it was written.  Both pass from the parts of a
shape to the whole, so a shape is read back if its parts are.
-/

namespace WorldPlugins.Json

open Lexeme Reader
open Text (Raw)

/-- Reading undoes writing.  `Fits` holds of all that is read at so many levels, and what fits is read back where there
are `depth` levels at least, the levels that any value of the shape nests. -/
structure Decoder.Lossless {α : Type} (d : Decoder α) (enc : α → Json) (depth : Nat) (Fits : Nat → α → Prop) :
    Prop where
  fits {fuel levels : Nat} {s : Raw} {a : α} {rest : Raw} (h : d.read fuel levels s = .ok (a, rest)) : Fits levels a
  written {fuel levels : Nat} {a : α} {rest : Raw} (hlevels : depth ≤ levels) (hfits : Fits levels a)
    (hwhole : (enc a).Whole) (hfuel : (enc a).chars.length ≤ fuel) (hrest : Delimited rest) :
    d.read fuel levels (Raw.ofChars (enc a).chars ++ rest) = .ok (a, rest)

namespace Decoder

variable {α σ : Type} {fuel levels : Nat} {s rest : Raw}

theorem misfit_ne_ok {expected : String} {read : α × Raw} : misfit expected s ≠ .ok read := by
  intro h
  obtain ⟨found, -, h⟩ := (bind_eq_ok_iff _ _ _).mp h
  cases h

theorem nested_eq_ok {read : Nat → Read (α × Raw)} {p : α × Raw} (h : nested levels read = .ok p) :
    ∃ inner, levels = inner + 1 ∧ read inner = .ok p := by
  cases levels with
  | zero => cases h
  | succ inner => exact ⟨inner, rfl, h⟩

theorem skipSpace_skipSpace (s : Raw) : skipSpace (skipSpace s) = skipSpace s := by
  induction s with
  | nil => rfl
  | cons g s ih =>
    by_cases h : g.any isSpace = true
    · rw [skipSpace, if_pos h, ih]
    · rw [skipSpace, if_neg h, skipSpace, if_neg h]

/-- An object is read as the free-form value that it is. -/
theorem read_members_eq_ok_iff {m : Members} :
    members.read fuel levels s = .ok (m, rest) ↔ any.read fuel levels s = .ok (.object m, rest) := by
  constructor
  · intro h
    unfold members at h
    dsimp only at h
    split at h
    · next text htext =>
      obtain ⟨inner, rfl, h⟩ := nested_eq_ok h
      obtain ⟨⟨entries, u⟩, hentries, h⟩ := (bind_eq_ok_iff _ _ _).mp h
      cases h
      change value fuel (inner + 1) s = _
      rw [value, htext]
      simp [hentries]
    · exact absurd h misfit_ne_ok
  · intro h
    rcases value_cases h with ⟨hm, -⟩ | ⟨b, hm⟩ | ⟨n, hm⟩ | ⟨t, hm⟩ | ⟨inner, vs, text, -, hm, -⟩ |
      ⟨inner, entries, text, rfl, htext, hm, hentries⟩
    · cases hm
    · cases hm
    · cases hm
    · cases hm
    · cases hm
    · cases hm
      simp [members, htext, nested, hentries]

theorem ofString_members_eq_ok_iff {text : String} {m : Members} :
    members.ofString text = .ok m ↔ any.ofString text = .ok (.object m) := by
  simp only [ofString, ofRaw, bind_eq_ok_iff]
  constructor
  · rintro ⟨⟨read, rest⟩, hread, ⟨⟩, hend, hm⟩
    cases hm
    exact ⟨(.object read, rest), read_members_eq_ok_iff.mp hread, ⟨⟩, hend, rfl⟩
  · rintro ⟨⟨v, rest⟩, hread, ⟨⟩, hend, hm⟩
    cases hm
    exact ⟨(m, rest), read_members_eq_ok_iff.mpr hread, ⟨⟩, hend, rfl⟩

theorem lossless_any : any.Lossless id 0 Readable where
  fits := readable_of_value
  written _ hfits hwhole hfuel hrest := value_written hfits hwhole hfuel hrest

theorem lossless_string : string.Lossless .string 0 fun _ _ => True where
  fits _ := trivial
  written {fuel levels t rest} _ _ _ _ _ := by
    rw [chars]
    exact read_string fuel levels t rest

/-- A name of a closed list. -/
theorem lossless_oneOf (known : List String) {ofName? : String → Option α} {name : α → String}
    (hname : ∀ a, ofName? (name a) = some a) :
    (oneOf known ofName?).Lossless (fun a => .string (name a)) 0 fun _ _ => True where
  fits _ := trivial
  written {fuel levels a rest} _ _ _ _ _ := by
    rw [chars]
    exact read_oneOf (hname a) fuel levels rest

theorem isInt64_of_number {n : Number} {i : Int} (h : int64OfNumber n = .ok i) : Text.IsInt64 i := by
  cases n with
  | int j =>
    rw [int64OfNumber] at h
    split at h
    · next hj =>
      cases h
      exact hj
    · cases h
  | float bits => cases h

theorem lossless_int64 : int64.Lossless Json.int 0 fun _ i => Text.IsInt64 i where
  fits {fuel levels s i rest} h := by
    simp only [int64] at h
    split at h
    · cases h
    · split at h
      · obtain ⟨⟨n, u⟩, -, h⟩ := (bind_eq_ok_iff _ _ _).mp h
        dsimp only at h
        split at h
        · next hn =>
          cases h
          exact isInt64_of_number hn
        · cases h
      · exact absurd h misfit_ne_ok
  written {fuel levels i rest} _ hfits hwhole _ hrest := by
    cases hwhole with
    | number hn =>
      obtain ⟨c, cs, hcs, hc⟩ := exists_cons_numberChars hn
      have hread := numeral_numberChars hn hrest
      have hstart : some c = some '-' ∨ (digit? (some c)).isSome = true := by
        rcases hc with rfl | hdigit
        · exact .inl rfl
        · exact .inr (by rw [digit?_of_isDigit hdigit]; rfl)
      have hnumber : int64OfNumber (.int i) = .ok i := if_pos hfits
      rw [Json.int, chars]
      rw [hcs, ofChars_cons, List.cons_append] at hread ⊢
      simp only [int64, skipSpace_of_startsNumber hc, if_pos hstart, hread]
      simp only [bind, Except.bind, hnumber]
      rfl

theorem lossless_list {d : Decoder α} {enc : α → Json} {depth : Nat} {Fits : Nat → α → Prop}
    (hd : d.Lossless enc depth Fits) :
    (list d).Lossless (fun as => .array (as.map enc)) (depth + 1) fun levels as => ∀ a ∈ as, Fits (levels - 1) a where
  fits {fuel levels s as rest} h := by
    simp only [list] at h
    split at h
    · obtain ⟨inner, rfl, h⟩ := nested_eq_ok h
      obtain ⟨⟨bs, u⟩, hitems, h⟩ := (bind_eq_ok_iff _ _ _).mp h
      obtain ⟨w, -, h⟩ := (bind_eq_ok_iff _ _ _).mp h
      cases h
      exact forall_of_items (fun _ _ _ => hd.fits) hitems
    · exact absurd h misfit_ne_ok
  written {fuel levels as rest} hlevels hfits hwhole hfuel hrest := by
    obtain ⟨inner, rfl⟩ := Nat.exists_eq_add_of_le' (Nat.le_trans (Nat.le_add_left 1 depth) hlevels)
    cases hwhole with
    | array hitems =>
      have hlength := length_le_itemChars (as.map enc)
      rw [List.length_map] at hlength
      rw [chars, List.length_cons] at hfuel
      refine read_list as (fun a ha => startsItem_chars (hitems _ (List.mem_map_of_mem ha))) (fun a ha rest hrest => ?_)
        (by omega) rest
      have hitem := length_item_le (List.mem_map_of_mem (f := enc) ha)
      exact hd.written (Nat.le_of_succ_le_succ hlevels) (hfits a ha) (hitems _ (List.mem_map_of_mem ha)) (by omega) hrest

/-- A shape that is never written as null unless it is read from it may be given up for null. -/
theorem lossless_optional {d : Decoder α} {enc : α → Json} {depth : Nat} {Fits : Nat → α → Prop}
    (hd : d.Lossless enc depth Fits)
    (hnull : ∀ {fuel levels : Nat} {s : Raw} {a : α} {rest : Raw}, d.read fuel levels s = .ok (a, rest) →
      enc a = .null → (skipSpace s).head? = some (some 'n')) :
    (optional d).Lossless (fun o => (o.map enc).getD .null) depth
      fun levels o => ∀ a ∈ o, Fits levels a ∧ enc a ≠ .null where
  fits {fuel levels s o rest} h := by
    simp only [optional] at h
    split at h
    · obtain ⟨u, -, h⟩ := (bind_eq_ok_iff _ _ _).mp h
      cases h
      exact nofun
    · next hstart =>
      obtain ⟨⟨a, u⟩, hread, h⟩ := (bind_eq_ok_iff _ _ _).mp h
      cases h
      rintro b ⟨⟩
      refine ⟨hd.fits hread, fun hnone => ?_⟩
      -- The blanks were skipped to look for null, so the text starts with what is found after them.
      obtain ⟨t, ht⟩ := List.head?_eq_some_iff.mp (hnull hread hnone)
      rw [skipSpace_skipSpace] at ht
      exact hstart t ht
  written {fuel levels o rest} hlevels hfits hwhole hfuel hrest := by
    cases o with
    | none =>
      simp [optional, chars, skipSpace, isSpace, word, bind, Except.bind, pure, Except.pure]
    | some a =>
      obtain ⟨ha, hne⟩ := hfits a rfl
      have hread := hd.written hlevels ha hwhole hfuel hrest
      obtain ⟨c, cs, hcs, hspace, -, hc⟩ := exists_cons_chars hwhole
      have hcn : c ≠ 'n' := fun h => hne (hc h)
      rw [Option.map_some, Option.getD_some] at hcs
      rw [hcs, ofChars_cons, List.cons_append] at hread
      rw [Option.map_some, Option.getD_some, hcs, ofChars_cons, List.cons_append]
      simp [optional, skipSpace, hspace, hcn, hread, bind, Except.bind, pure, Except.pure]

/-- Nothing but a text of null is read as null. -/
theorem lossless_optional_any : (optional any).Lossless (fun v => (v.map id).getD .null) 0
    fun levels o => ∀ v ∈ o, Readable levels v ∧ v ≠ .null := by
  refine lossless_optional lossless_any fun hread hnull => ?_
  rcases value_cases hread with ⟨-, h⟩ | ⟨b, h⟩ | ⟨n, h⟩ | ⟨t, h⟩ | ⟨inner, vs, text, -, h, -⟩ |
    ⟨inner, members, text, -, -, h, -⟩
  · exact h
  all_goals
    rw [h] at hnull
    cases hnull

end Decoder

namespace Field

variable {α σ : Type} {fields : List (Field σ)} {fuel levels : Nat} {s rest : Raw} {P : σ → Prop}

def Keeps (field : Field σ) (fuel levels : Nat) (P : σ → Prop) : Prop :=
  ∀ {s : Raw} {set : σ → σ} {rest : Raw}, field.read fuel levels s = .ok (set, rest) → ∀ r, P r → P (set r)

/-- A value is read as this change, whatever may follow it. -/
def Writes (field : Field σ) (levels : Nat) (v : Json) (set : σ → σ) : Prop :=
  v.Whole → ∀ {fuel : Nat} {rest : Raw}, v.chars.length ≤ fuel → Delimited rest →
    field.read fuel levels (Raw.ofChars v.chars ++ rest) = .ok (set, rest)

variable {d : Decoder α} {enc : α → Json} {depth : Nat} {Fits : Nat → α → Prop} {set : α → σ → σ}

theorem keeps_of_lossless (hd : d.Lossless enc depth Fits) (hset : ∀ a, Fits levels a → ∀ r, P r → P (set a r))
    (required : Bool) (key : String) : (make required key d set).Keeps fuel levels P := by
  intro s set rest h
  obtain ⟨⟨a, u⟩, hread, h⟩ := (bind_eq_ok_iff _ _ _).mp h
  cases h
  exact hset a (hd.fits hread)

theorem writes_of_lossless (hd : d.Lossless enc depth Fits) (hlevels : depth ≤ levels) {a : α} (hfits : Fits levels a)
    (required : Bool) (key : String) : (make required key d set).Writes levels (enc a) (set a) :=
  fun hwhole _ _ hfuel hrest => read_make (hd.written hlevels hfits hwhole hfuel hrest) required key set

theorem readMembers_keeps (hkeeps : ∀ field ∈ fields, field.Keeps fuel levels P) {steps : Nat} {first : Bool}
    {seen : List String} {r : σ} {p : (List String × σ) × Raw}
    (h : readMembers fields fuel levels steps first seen r s = .ok p) (hr : P r) : P p.1.2 := by
  induction steps generalizing first seen r s with
  | zero => cases h
  | succ steps ih =>
    obtain ⟨next, -, h⟩ := (bind_eq_ok_iff _ _ _).mp h
    cases next with
    | none =>
      cases h
      exact hr
    | some t =>
      obtain ⟨⟨key, u⟩, -, h⟩ := (bind_eq_ok_iff _ _ _).mp h
      dsimp only at h
      split at h
      · obtain ⟨v, -, h⟩ := (bind_eq_ok_iff _ _ _).mp h
        obtain ⟨w, -, h⟩ := (bind_eq_ok_iff _ _ _).mp h
        exact ih h hr
      · next field hfield =>
        split at h
        · cases h
        · obtain ⟨v, -, h⟩ := (bind_eq_ok_iff _ _ _).mp h
          obtain ⟨⟨set, w⟩, hset, h⟩ := (bind_eq_ok_iff _ _ _).mp h
          exact ih h (hkeeps field (List.mem_of_find?_eq_some hfield) hset r hr)

theorem readItems_keeps (hkeeps : ∀ field ∈ fields, field.Keeps fuel levels P) {shape : String} {index : Nat}
    {first : Bool} {r : σ} {p : σ × Raw} (h : readItems shape fuel levels fields index first r s = .ok p) (hr : P r) :
    P p.1 := by
  induction fields generalizing index first r s with
  | nil =>
    cases h
    exact hr
  | cons field fields ih =>
    obtain ⟨hfield, hfields⟩ := List.forall_mem_cons.mp hkeeps
    obtain ⟨next, -, h⟩ := (bind_eq_ok_iff _ _ _).mp h
    cases next with
    | none =>
      dsimp only at h
      split at h
      · cases h
      · exact ih hfields h hr
    | some t =>
      obtain ⟨⟨set, u⟩, hset, h⟩ := (bind_eq_ok_iff _ _ _).mp h
      exact ih hfields h (hfield hset r hr)

/-- The members of an object that change one record into another, each by the field of its key. -/
inductive ByKey (fields : List (Field σ)) (levels : Nat) : List (String × Json) → σ → σ → Prop
  | nil (r : σ) : ByKey fields levels [] r r
  | cons {key : String} {v : Json} {members : List (String × Json)} {field : Field σ} {set : σ → σ} {r r' : σ}
      (hfield : fields.find? (fun f => f.key == key) = some field) (hset : field.Writes levels v set)
      (hmembers : ByKey fields levels members (set r) r') : ByKey fields levels ((key, v) :: members) r r'

theorem ByKey.member {key : String} {v : Json} {members : List (String × Json)} {required : Bool} {r r' : σ} {a : α}
    (hd : d.Lossless enc depth Fits) (hlevels : depth ≤ levels) (hfits : Fits levels a) (hv : enc a = v)
    (hfield : fields.find? (fun f => f.key == key) = some (make required key d set))
    (hmembers : ByKey fields levels members (set a r) r') : ByKey fields levels ((key, v) :: members) r r' :=
  .cons hfield (hv ▸ writes_of_lossless hd hlevels hfits required key) hmembers

/-- A member that is left out if there is nothing to write changes nothing then. -/
theorem ByKey.spareMember {key : String} {d : Decoder α} {set : Option α → σ → σ} {Fits : Nat → Option α → Prop}
    {members : List (String × Json)} {required : Bool} {r r' : σ} {o : Option α}
    (hd : (Decoder.optional d).Lossless (fun o => (o.map enc).getD .null) depth Fits) (hlevels : depth ≤ levels)
    (hfits : Fits levels o) (hnone : set none r = r)
    (hfield : fields.find? (fun f => f.key == key) = some (make required key (Decoder.optional d) set))
    (hmembers : ByKey fields levels members (set o r) r') :
    ByKey fields levels ((o.toList.map fun a => (key, enc a)) ++ members) r r' := by
  cases o with
  | none =>
    rw [hnone] at hmembers
    exact hmembers
  | some a => exact .member hd hlevels hfits rfl hfield hmembers

inductive ByPlace (levels : Nat) : List (Field σ) → List Json → σ → σ → Prop
  | nil (r : σ) : ByPlace levels [] [] r r
  | cons {v : Json} {items : List Json} {field : Field σ} {fields : List (Field σ)} {set : σ → σ} {r r' : σ}
      (hset : field.Writes levels v set) (hitems : ByPlace levels fields items (set r) r') :
      ByPlace levels (field :: fields) (v :: items) r r'

private theorem contains_eq_false {key : String} {before seen : List String} (h : (before ++ key :: seen).Nodup) :
    seen.contains key = false := by
  have hkey := (List.nodup_cons.mp (List.nodup_append.mp h).2.1).1
  simpa using hkey

private theorem readMembers_more {members : List (String × Json)} {r r' : σ} (h : ByKey fields levels members r r')
    (hwhole : ∀ member ∈ members, Whole member.2) (hfuel : (moreMemberChars members).length ≤ fuel)
    {seen : List String} (hkeys : ((members.map Prod.fst).reverse ++ seen).Nodup) {steps : Nat}
    (hsteps : members.length < steps) (rest : Raw) :
    readMembers fields fuel levels steps false seen r (Raw.ofChars (moreMemberChars members) ++ rest) =
      .ok (((members.map Prod.fst).reverse ++ seen, r'), some '}' :: rest) := by
  induction h generalizing seen steps with
  | nil r =>
    obtain ⟨steps, rfl⟩ := Nat.exists_eq_succ_of_ne_zero (Nat.ne_of_gt hsteps)
    exact readMembers_end fields fuel levels steps false seen r rest
  | @cons key v members field set r r' hfield hset hmembers ih =>
    obtain ⟨steps, rfl⟩ := Nat.exists_eq_succ_of_ne_zero (Nat.ne_of_gt (Nat.zero_lt_of_lt hsteps))
    obtain ⟨hv, hmore⟩ := List.forall_mem_cons.mp hwhole
    simp only [List.map_cons, List.reverse_cons, List.append_assoc, List.singleton_append] at hkeys ⊢
    simp only [moreMemberChars, List.length_cons, List.length_append] at hfuel
    have hread := hset hv (by omega : v.chars.length ≤ fuel) (delimited_moreMemberChars members rest)
    have hstep := readMembers_next hfield (contains_eq_false hkeys) hread steps r
    simp only [moreMemberChars, ofChars_cons, ofChars_append, List.cons_append, List.append_assoc]
    rw [hstep]
    exact ih hmore (by omega) hkeys (Nat.lt_of_succ_lt_succ hsteps)

/-- The members of a written object are read as the changes that they stand for. -/
theorem readMembers_written {members : List (String × Json)} {r r' : σ} (h : ByKey fields levels members r r')
    (hwhole : ∀ member ∈ members, Whole member.2) (hfuel : (memberChars members).length < fuel)
    (hkeys : (members.map Prod.fst).Nodup) (rest : Raw) :
    readMembers fields fuel levels fuel true [] r (Raw.ofChars (memberChars members) ++ rest) =
      .ok (((members.map Prod.fst).reverse, r'), some '}' :: rest) := by
  obtain ⟨steps, hsteps⟩ := Nat.exists_eq_succ_of_ne_zero (Nat.ne_of_gt (Nat.zero_lt_of_lt hfuel))
  cases h with
  | nil r =>
    rw [hsteps]
    exact readMembers_end fields _ levels steps true [] r rest
  | @cons key v members field set r r' hfield hset hmembers =>
    obtain ⟨hv, hmore⟩ := List.forall_mem_cons.mp hwhole
    have hlength := length_lt_moreMemberChars members
    simp only [memberChars, List.length_cons, List.length_append] at hfuel
    have hread := hset hv (by omega : v.chars.length ≤ fuel) (delimited_moreMemberChars members rest)
    have hstep := readMembers_first hfield (List.contains_nil : ([] : List String).contains key = false) hread steps r
    have hrest : ((members.map Prod.fst).reverse ++ [key]).Nodup := by
      rw [← List.reverse_cons]
      exact (List.reverse_perm _).nodup_iff.mpr hkeys
    rw [List.map_cons, List.reverse_cons]
    simp only [memberChars, ofChars_cons, ofChars_append, List.cons_append, List.append_assoc]
    have hmembers := readMembers_more hmembers hmore (by omega : (moreMemberChars members).length ≤ fuel) hrest
      (by omega : members.length < steps) rest
    rw [← hmembers, ← hstep, ← Nat.succ_eq_add_one, ← hsteps]

private theorem readItems_more {items : List Json} {r r' : σ} (h : ByPlace levels fields items r r')
    (hwhole : ∀ v ∈ items, Whole v) (hfuel : (moreItemChars items).length ≤ fuel) (shape : String) (index : Nat)
    (rest : Raw) :
    readItems shape fuel levels fields index false r (Raw.ofChars (moreItemChars items) ++ rest) =
      .ok (r', some ']' :: rest) := by
  induction h generalizing index with
  | nil r => rfl
  | @cons v items field fields set r r' hset hitems ih =>
    obtain ⟨hv, hmore⟩ := List.forall_mem_cons.mp hwhole
    simp only [moreItemChars, List.length_cons, List.length_append] at hfuel
    have hread := hset hv (by omega : v.chars.length ≤ fuel) (delimited_moreItemChars items rest)
    have htail := ih hmore (by omega) (index + 1)
    simp only [moreItemChars, ofChars_cons, ofChars_append, List.cons_append, List.append_assoc, readItems]
    rw [item?_next (startsItem_chars hv)]
    simp [hread, htail, bind, Except.bind]

/-- The items of a written array are read as the changes that they stand for. -/
theorem readItems_written {items : List Json} {r r' : σ} (h : ByPlace levels fields items r r')
    (hwhole : ∀ v ∈ items, Whole v) (hfuel : (itemChars items).length ≤ fuel) (shape : String) (index : Nat)
    (rest : Raw) :
    readItems shape fuel levels fields index true r (Raw.ofChars (itemChars items) ++ rest) =
      .ok (r', some ']' :: rest) := by
  cases h with
  | nil r => rfl
  | @cons v items field fields set r r' hset hitems =>
    obtain ⟨hv, hmore⟩ := List.forall_mem_cons.mp hwhole
    simp only [itemChars, List.length_append] at hfuel
    have hread := hset hv (by omega : v.chars.length ≤ fuel) (delimited_moreItemChars items rest)
    have htail := readItems_more hitems hmore (by omega : (moreItemChars items).length ≤ fuel) shape (index + 1) rest
    simp only [itemChars, ofChars_append, List.append_assoc, readItems]
    rw [item?_first (startsItem_chars hv)]
    simp [hread, htail, bind, Except.bind]

end Field

namespace Decoder

variable {σ : Type} {fields : List (Field σ)} {blank : σ} {enc : σ → Json} {depth : Nat} (Fits : Nat → σ → Prop)

/-- A record is lossless if its fields keep it fitting and its written members change the blank record into it. -/
theorem lossless_record (type : String)
    (hkeeps : ∀ fuel levels, ∀ field ∈ fields, field.Keeps fuel levels (Fits levels))
    (hblank : ∀ levels, Fits levels blank)
    (hwrites : ∀ levels r, depth ≤ levels → Fits levels r → ∃ members, enc r = .object members ∧
      Field.ByKey fields levels members blank r ∧ (members.map Prod.fst).Nodup ∧
      Field.missing? fields (members.map Prod.fst).reverse = none) :
    (record type fields blank).Lossless enc (depth + 1) fun levels => Fits (levels - 1) where
  fits {fuel levels s r rest} h := by
    simp only [record] at h
    split at h
    · obtain ⟨inner, rfl, h⟩ := nested_eq_ok h
      obtain ⟨⟨r', u⟩, hitems, h⟩ := (bind_eq_ok_iff _ _ _).mp h
      obtain ⟨w, -, h⟩ := (bind_eq_ok_iff _ _ _).mp h
      cases h
      exact Field.readItems_keeps (hkeeps fuel inner) hitems (hblank inner)
    · obtain ⟨inner, rfl, h⟩ := nested_eq_ok h
      obtain ⟨⟨⟨seen, r'⟩, u⟩, hmembers, h⟩ := (bind_eq_ok_iff _ _ _).mp h
      dsimp only at h
      split at h
      · cases h
      · obtain ⟨w, -, h⟩ := (bind_eq_ok_iff _ _ _).mp h
        cases h
        exact Field.readMembers_keeps (hkeeps fuel inner) hmembers (hblank inner)
    · exact absurd h misfit_ne_ok
  written {fuel levels r rest} hlevels hfits hwhole hfuel hrest := by
    obtain ⟨inner, rfl⟩ := Nat.exists_eq_add_of_le' (Nat.le_trans (Nat.le_add_left 1 depth) hlevels)
    obtain ⟨members, henc, hmembers, hkeys, hmissing⟩ := hwrites inner r (Nat.le_of_succ_le_succ hlevels) hfits
    rw [henc] at hwhole hfuel ⊢
    cases hwhole with
    | object hwhole =>
      rw [chars] at hfuel ⊢
      exact read_record (Field.readMembers_written hmembers hwhole hfuel hkeys rest) hmissing type

/-- A record without field names is lossless if its fields keep it fitting and its written items change the blank
record into it. -/
theorem lossless_tuple (type : String)
    (hkeeps : ∀ fuel levels, ∀ field ∈ fields, field.Keeps fuel levels (Fits levels))
    (hblank : ∀ levels, Fits levels blank)
    (hwrites : ∀ levels r, depth ≤ levels → Fits levels r → ∃ items, enc r = .array items ∧
      Field.ByPlace levels fields items blank r) :
    (tuple type fields blank).Lossless enc (depth + 1) fun levels => Fits (levels - 1) where
  fits {fuel levels s r rest} h := by
    simp only [tuple] at h
    split at h
    · obtain ⟨inner, rfl, h⟩ := nested_eq_ok h
      obtain ⟨⟨r', u⟩, hitems, h⟩ := (bind_eq_ok_iff _ _ _).mp h
      obtain ⟨w, -, h⟩ := (bind_eq_ok_iff _ _ _).mp h
      cases h
      exact Field.readItems_keeps (hkeeps fuel inner) hitems (hblank inner)
    · exact absurd h misfit_ne_ok
  written {fuel levels r rest} hlevels hfits hwhole hfuel hrest := by
    obtain ⟨inner, rfl⟩ := Nat.exists_eq_add_of_le' (Nat.le_trans (Nat.le_add_left 1 depth) hlevels)
    obtain ⟨items, henc, hitems⟩ := hwrites inner r (Nat.le_of_succ_le_succ hlevels) hfits
    rw [henc] at hwhole hfuel ⊢
    cases hwhole with
    | array hwhole =>
      rw [chars, List.length_cons] at hfuel
      have hread := Field.readItems_written hitems hwhole (by omega : (itemChars items).length ≤ fuel)
        (shapeName type fields.length) 0 rest
      simp [tuple, chars, skipSpace, isSpace, nested, readArray, hread, closeArray, bind, Except.bind, pure,
        Except.pure]

section Texts

variable {α : Type} {d : Decoder α} {enc : α → Json} {depth : Nat} {Fits : Nat → α → Prop}

/-- The written form is a normal form: what was read of any text is read back from it, so it is written alike again, and
two texts have one written form exactly if they hold the same. -/
def Canonical (d : Decoder α) (enc : α → Json) : Prop :=
  ∀ (s : Raw) (a : α), d.ofRaw s = .ok a → (enc a).Whole →
    d.ofString (enc a).print = .ok a ∧
      (∀ b, d.ofString (enc a).print = .ok b → (enc b).print = (enc a).print) ∧
      ∀ (t : Raw) (b : α), d.ofRaw t = .ok b → (enc b).Whole → ((enc a).print = (enc b).print ↔ a = b)

theorem Lossless.fits_of_ofRaw (h : d.Lossless enc depth Fits) {s : Raw} {a : α} (hread : d.ofRaw s = .ok a) :
    Fits deepest a := by
  obtain ⟨⟨b, rest⟩, hd, hread⟩ := (bind_eq_ok_iff _ _ _).mp hread
  obtain ⟨u, -, hread⟩ := (bind_eq_ok_iff _ _ _).mp hread
  cases hread
  exact h.fits hd

theorem Lossless.ofString_print (h : d.Lossless enc depth Fits) (hdepth : depth ≤ deepest) {a : α}
    (hfits : Fits deepest a) (hwhole : (enc a).Whole) : d.ofString (enc a).print = .ok a := by
  apply ofString_eq_ok
  have hfuel : (enc a).chars.length ≤ (Raw.ofString (enc a).print).length + 1 := by
    rw [Json.ofString_print, Raw.ofChars, List.length_map]
    exact Nat.le_succ _
  have hread : d.read _ deepest (Raw.ofChars (enc a).chars ++ []) = .ok (a, []) :=
    h.written hdepth hfits hwhole hfuel trivial
  rwa [List.append_nil, ← Json.ofString_print] at hread

theorem Lossless.canonical (h : d.Lossless enc depth Fits) (hdepth : depth ≤ deepest) : Canonical d enc := by
  have hback {s : Raw} {a : α} (hread : d.ofRaw s = .ok a) (hwhole : (enc a).Whole) :
      d.ofString (enc a).print = .ok a := h.ofString_print hdepth (h.fits_of_ofRaw hread) hwhole
  intro s a hs ha
  refine ⟨hback hs ha, fun b hb => ?_, fun t b ht hb => ⟨fun hprint => ?_, fun hsame => by rw [hsame]⟩⟩
  · rw [hback hs ha] at hb
    cases hb
    rfl
  · have hread := hback hs ha
    rw [hprint, hback ht hb] at hread
    cases hread
    rfl

end Texts

end Decoder

end WorldPlugins.Json
