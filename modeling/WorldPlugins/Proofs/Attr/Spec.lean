import WorldPlugins.Attr.Spec

/-! # Which specifications are read

A text is cut at the first bracket, at the first closing bracket after it and at the first equals sign, so the parts of
a specification are told by where these characters first occur.  The form with a type is tried first, on the text as a
whole.  So a specification without a type is read as one only if its value does not go on like one with a type.
-/

namespace WorldPlugins.Attr

variable {mark : Char} {text before after : List Char}

theorem cut_append (h : mark ∉ before) (after : List Char) :
    cut mark (before ++ mark :: after) = some (before, after) := by
  induction before with
  | nil => simp [cut]
  | cons c before ih =>
    obtain ⟨hc, hbefore⟩ := List.ne_and_not_mem_of_not_mem_cons h
    rw [List.cons_append, cut, if_neg (Ne.symm hc), ih hbefore]
    rfl

/-- A text is cut at the first occurrence of the character. -/
theorem cut_eq_some_iff : cut mark text = some (before, after) ↔ text = before ++ mark :: after ∧ mark ∉ before := by
  constructor
  · intro h
    induction text generalizing before with
    | nil => cases h
    | cons c text ih =>
      rw [cut] at h
      split at h
      · next hc =>
        cases h
        exact ⟨by rw [hc, List.nil_append], List.not_mem_nil⟩
      · next hc =>
        obtain ⟨⟨first, rest⟩, hcut, hparts⟩ := Option.map_eq_some_iff.mp h
        cases hparts
        obtain ⟨rfl, hfirst⟩ := ih hcut
        exact ⟨rfl, List.not_mem_cons_of_ne_of_not_mem (Ne.symm hc) hfirst⟩
  · rintro ⟨rfl, h⟩
    exact cut_append h after

/-- What precedes a character begins with any text in front that does not have the character. -/
theorem exists_append_of_notMem {front rest : List Char} (hfront : mark ∉ front)
    (h : front ++ text = before ++ mark :: rest) : ∃ inner, before = front ++ inner ∧ text = inner ++ mark :: rest := by
  obtain ⟨inner, hbefore, htext⟩ | ⟨tail, hparts, htext⟩ := List.append_eq_append_iff.mp h
  · exact ⟨inner, hbefore, htext⟩
  · cases tail with
    | nil => exact ⟨[], by simpa using hparts.symm, by simpa using htext.symm⟩
    | cons c tail =>
      obtain ⟨rfl, -⟩ := List.cons.inj htext
      exact absurd (by simp [hparts]) hfront

variable {name type value : List Char}

/-- The parts of a specification with a type are told by its first bracket and the first closing bracket after it. -/
theorem typedParts?_eq_some_iff :
    typedParts? text = some (name, type, value) ↔
      text = name ++ '[' :: (type ++ ']' :: '=' :: value) ∧ ('[' ∉ name ∧ name ≠ []) ∧ ']' ∉ type ∧ type ≠ [] := by
  unfold typedParts?
  constructor
  · intro h
    obtain ⟨⟨first, rest⟩, hopen, hafter⟩ := Option.bind_eq_some_iff.mp h
    obtain ⟨⟨second, rest'⟩, hclose, hparts⟩ := Option.bind_eq_some_iff.mp hafter
    obtain ⟨rfl, hname⟩ := cut_eq_some_iff.mp hopen
    obtain ⟨rfl, htype⟩ := cut_eq_some_iff.mp hclose
    dsimp only at hparts
    split at hparts
    · split at hparts
      · next hne =>
        cases hparts
        exact ⟨rfl, ⟨hname, hne.1⟩, htype, hne.2⟩
      · cases hparts
    · cases hparts
  · rintro ⟨rfl, ⟨hname, hname'⟩, htype, htype'⟩
    simp [cut_append hname, cut_append htype, hname', htype']

theorem plainParts?_append (hname : name ≠ []) (hbracket : '[' ∉ name) (hequals : '=' ∉ name) (value : List Char) :
    plainParts? (name ++ '=' :: value) = some (name, value) := by
  simp [plainParts?, cut_append hequals, hname, hbracket]

/-- A text consists of what precedes its first bracket, of a text in brackets and, after an equals sign, of a rest. -/
structure Bracketed (text before type after : String) : Prop where
  parts : text = before ++ "[" ++ type ++ "]=" ++ after
  first_open : '[' ∉ before.toList
  first_close : ']' ∉ type.toList
  type_ne : type ≠ ""

section

variable {text before type after : String}

theorem typedParts?_toList_eq_some_iff :
    typedParts? text.toList = some (before.toList, type.toList, after.toList) ↔
      Bracketed text before type after ∧ before ≠ "" := by
  rw [typedParts?_eq_some_iff]
  constructor
  · rintro ⟨htext, ⟨hopen, hbefore⟩, hclose, htype⟩
    refine ⟨⟨String.toList_injective ?_, hopen, hclose, ?_⟩, ?_⟩
    · simp [htext]
    · simpa using htype
    · simpa using hbefore
  · rintro ⟨⟨rfl, hopen, hclose, htype⟩, hbefore⟩
    exact ⟨by simp, ⟨hopen, by simpa using hbefore⟩, hclose, by simpa using htype⟩

theorem ofSpec_of_bracketed (h : Bracketed text before type after) (hbefore : before ≠ "") :
    ofSpec text = match AttrType.ofName? type with
      | some type => .ok ⟨before, after, type⟩
      | none => .error (.unknownType type) := by
  have hparts := typedParts?_toList_eq_some_iff.mpr ⟨h, hbefore⟩
  cases hname : AttrType.ofName? type with
  | none => simp [ofSpec, hparts, hname]
  | some type => simp [ofSpec, hparts, hname]

theorem typedParts?_eq_none (h : ∀ before type after, ¬ Bracketed text before type after) :
    typedParts? text.toList = none := by
  rw [Option.eq_none_iff_forall_ne_some]
  rintro ⟨before, type, after⟩ hparts
  refine h (String.ofList before) (String.ofList type) (String.ofList after) ?_
  exact (typedParts?_toList_eq_some_iff.mp (by simpa only [String.toList_ofList] using hparts)).1

end

section

variable {name value : String}

theorem ofSpec_of_not_bracketed (hname : name ≠ "") (hbracket : '[' ∉ name.toList) (hequals : '=' ∉ name.toList)
    (h : ∀ before type after, ¬ Bracketed (name ++ "=" ++ value) before type after) :
    ofSpec (name ++ "=" ++ value) = .ok (.string name value) := by
  have hplain : plainParts? (name ++ "=" ++ value).toList = some (name.toList, value.toList) := by
    have hparts := plainParts?_append (by simpa using hname) hbracket hequals value.toList
    simpa using hparts
  unfold ofSpec
  simp only [typedParts?_eq_none h, hplain, String.ofList_toList]

/-- The first bracket of a text with a name and an equals sign in front is that of the text. -/
theorem bracketed_append_iff (hbracket : '[' ∉ name.toList) {before type after : String} :
    Bracketed (name ++ "=" ++ value) before type after ↔
      ∃ inner, before = name ++ "=" ++ inner ∧ Bracketed value inner type after := by
  have hfront : '[' ∉ (name ++ "=").toList := by simpa using hbracket
  constructor
  · rintro ⟨hparts, hopen, hclose, htype⟩
    have hlist : (name ++ "=").toList ++ value.toList = before.toList ++ '[' :: (type ++ "]=" ++ after).toList := by
      simpa using congrArg String.toList hparts
    obtain ⟨inner, hbefore, hvalue⟩ := exists_append_of_notMem hfront hlist
    refine ⟨String.ofList inner, String.toList_injective (by simpa using hbefore), ?_, ?_, hclose, htype⟩
    · exact String.toList_injective (by simpa using hvalue)
    · simp only [hbefore, List.mem_append, not_or] at hopen
      simpa using hopen.2
  · rintro ⟨inner, rfl, rfl, hopen, hclose, htype⟩
    refine ⟨by simp only [String.append_assoc], ?_, hclose, htype⟩
    rw [String.toList_append, List.mem_append, not_or]
    exact ⟨hfront, hopen⟩

/-- A name without a bracket or an equals sign, with an equals sign and a value, is read as the attribute of type
`STRING` with that name and value unless the value goes on like a specification with a type.  If it does, all that
precedes the bracket is read as the name, and the text in the brackets as the type. -/
theorem ofSpec_untyped (hname : name ≠ "") (hbracket : '[' ∉ name.toList) (hequals : '=' ∉ name.toList) :
    (ofSpec (name ++ "=" ++ value) = .ok (.string name value) ↔
      ¬ ∃ before type after, Bracketed value before type after) ∧
    ∀ before type after, Bracketed value before type after →
      ofSpec (name ++ "=" ++ value) = match AttrType.ofName? type with
        | some type => .ok ⟨name ++ "=" ++ before, after, type⟩
        | none => .error (.unknownType type) := by
  have htyped : ∀ before type after, Bracketed value before type after →
      ofSpec (name ++ "=" ++ value) = match AttrType.ofName? type with
        | some type => .ok ⟨name ++ "=" ++ before, after, type⟩
        | none => .error (.unknownType type) := fun before type after h =>
    ofSpec_of_bracketed ((bracketed_append_iff hbracket).mpr ⟨before, rfl, h⟩) (by simp)
  refine ⟨⟨?_, ?_⟩, htyped⟩
  · rintro h ⟨before, type, after, hvalue⟩
    rw [htyped before type after hvalue] at h
    split at h
    · have hlonger : name ++ "=" ++ before = name := congrArg Attr.name (Except.ok.inj h)
      simpa [String.append_assoc] using congrArg String.length hlonger
    · cases h
  · intro h
    refine ofSpec_of_not_bracketed hname hbracket hequals fun before type after hwhole => h ?_
    obtain ⟨inner, -, hvalue⟩ := (bracketed_append_iff hbracket).mp hwhole
    exact ⟨inner, type, after, hvalue⟩

theorem ofSpec_untyped_note :
    (¬ ∃ before type after, Bracketed "see [above]" before type after) ∧
    ofSpec ("note" ++ "=" ++ "see [above]=below") = .error (.unknownType "above") ∧
    ofSpec ("note" ++ "=" ++ "b[INTEGER]=4") = .ok ⟨"note=b", "4", .integer⟩ := by
  refine ⟨?_, ?_, ?_⟩
  · exact (ofSpec_untyped (show "note" ≠ "" by decide) (by decide) (by decide)).1.mp (by rfl)
  · exact (ofSpec_untyped (by decide) (by decide) (by decide)).2 "see " "above" "below"
      ⟨by decide, by decide, by decide, by decide⟩
  · exact (ofSpec_untyped (by decide) (by decide) (by decide)).2 "b" "INTEGER" "4"
      ⟨by decide, by decide, by decide, by decide⟩

/-- The text in brackets in a value is refused as a type, though the name and the value are those of an attribute. -/
theorem value_refused_as_type :
    ("note" ≠ "" ∧ '[' ∉ "note".toList ∧ '=' ∉ "note".toList) ∧
    ofSpec ("note" ++ "=" ++ "see [above]=below") = .error (.unknownType "above") ∧
    ofSpec ("note" ++ "=" ++ "see [above]=below") ≠ .ok (.string "note" "see [above]=below") := by
  have hrefused : ofSpec ("note" ++ "=" ++ "see [above]=below") = .error (.unknownType "above") := by rfl
  exact ⟨by decide, hrefused, fun h => by cases hrefused.symm.trans h⟩

end

end WorldPlugins.Attr
