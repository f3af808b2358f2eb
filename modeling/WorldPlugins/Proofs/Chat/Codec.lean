import WorldPlugins.Proofs.Chat.Channel

/-! # Which channels are read back

A channel is written as an attribute with five fields, each a list of names, and it is read back if each of these lists
is.  An attribute that is read as a channel may have other fields, or fields of one name more than once.  The lists that
are read from it are ones that are read back, so writing the channel again only brings the attribute into order.
-/

namespace WorldPlugins.Chat.Channel

def reencode (a : Attr) : Except AttrError Attr := (ofAttr a).map toAttr

theorem ofAttr_toAttr_iff (c : Channel) :
    ofAttr c.toAttr = .ok c ↔
      ∀ names ∈ c.nameLists, (∀ name ∈ names, ',' ∉ name.toList) ∧ names ≠ [""] := by
  rw [ofAttr_toAttr_eq, Except.ok.injEq, mapNames_eq_self_iff]
  simp only [NameList.split_join_eq_self_iff]

/-- The lists of a channel that was read are the names in some texts. -/
theorem nameLists_eq_split {a : Attr} {c : Channel} (h : ofAttr a = .ok c) :
    ∀ names ∈ c.nameLists, ∃ text, names = NameList.split text := by
  obtain ⟨fields, -, rfl⟩ := (ofAttr_eq_ok_iff a c).mp h
  simp only [nameLists, List.forall_mem_cons, fieldAccess]
  exact ⟨exists_fieldNames_eq_split fields _, exists_fieldNames_eq_split fields _, exists_fieldNames_eq_split fields _,
    exists_fieldNames_eq_split fields _, exists_fieldNames_eq_split fields _, List.forall_mem_nil _⟩

theorem ofAttr_toAttr_of_ofAttr {a : Attr} {c : Channel} (h : ofAttr a = .ok c) : ofAttr c.toAttr = .ok c := by
  rw [ofAttr_toAttr_iff]
  intro names hnames
  obtain ⟨text, rfl⟩ := nameLists_eq_split h names hnames
  exact ⟨fun _ => NameList.notMem_of_mem_split, NameList.split_ne_singleton_empty text⟩

/-- A channel is read back as it was if and only if none of its names has a comma and none of its lists is one empty
name.  A channel that was read from any attribute is read back, and after it is written once, writing it again gives
the same attribute. -/
theorem codec_lossless :
    (∀ c : Channel, ofAttr c.toAttr = .ok c ↔
      ∀ names ∈ c.nameLists, (∀ name ∈ names, ',' ∉ name.toList) ∧ names ≠ [""]) ∧
    ∀ (a : Attr) (c : Channel), ofAttr a = .ok c →
      ofAttr c.toAttr = .ok c ∧ reencode a = .ok c.toAttr ∧ reencode c.toAttr = .ok c.toAttr := by
  refine ⟨ofAttr_toAttr_iff, fun a c h => ?_⟩
  have hback := ofAttr_toAttr_of_ofAttr h
  exact ⟨hback, by rw [reencode, h]; rfl, by rw [reencode, hback]; rfl⟩

def untidy : Attr :=
  .list "#staff" [.string "joinRoles" "guests", .string "topic" "tea", ⟨"members", "Bob,Alice", .thing⟩,
    .string "members" "Eve", .string "visPlayers" ""]

theorem ofAttr_untidy : ofAttr untidy = .ok ⟨"#staff", ["Bob", "Alice"], ⟨⟨[], []⟩, ⟨["guests"], []⟩⟩⟩ :=
  (ofAttr_eq_ok_iff _ _).mpr ⟨_, Attr.listValue_list _ _, by decide⟩

/-- The comma in a name and the empty name of a list are lost, and an untidy attribute is brought into order. -/
theorem codec_lossless_staff :
    ofAttr (toAttr ⟨"#staff", ["Bob,Alice"], .unrestricted⟩) ≠ .ok ⟨"#staff", ["Bob,Alice"], .unrestricted⟩ ∧
    ofAttr (toAttr ⟨"#staff", [""], .unrestricted⟩) ≠ .ok ⟨"#staff", [""], .unrestricted⟩ ∧
    reencode untidy = .ok (toAttr ⟨"#staff", ["Bob", "Alice"], ⟨⟨[], []⟩, ⟨["guests"], []⟩⟩⟩) ∧
    reencode untidy ≠ .ok untidy := by
  obtain ⟨-, hwritten, -⟩ := codec_lossless.2 untidy _ ofAttr_untidy
  refine ⟨?_, ?_, hwritten, ?_⟩
  · rw [ne_eq, codec_lossless.1]
    decide
  · rw [ne_eq, codec_lossless.1]
    decide
  · rw [hwritten]
    intro h
    have hfields := congrArg Attr.listValue (Except.ok.inj h)
    rw [toAttr, untidy, Attr.listValue_list, Attr.listValue_list] at hfields
    exact absurd (Except.ok.inj hfields) (by decide)

end WorldPlugins.Chat.Channel
