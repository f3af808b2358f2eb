import WorldPlugins.Proofs.Chat.Commands
import WorldPlugins.Proofs.Store.Reordered
import WorldPlugins.Proofs.Text.Bytes

/-! # Listings of channels

`chat list` and `chat mine` tell the caller of the channels that can be read and that the caller may see.  One that
cannot be read, or that nobody can say whether the caller may see it, is left out and disturbs no other.  The names are
told in an order of their own, so the order in which the world keeps its attributes does not show.
-/

namespace WorldPlugins.Chat

open Session (outcome)

/-- A way of listing channels: its subcommand, what stands above the names, and which channels a caller wants. -/
structure Listing where
  subcommand : String
  header : String
  wanted : (caller : String) → Channel → Bool

namespace Listing

def all : Listing := ⟨"list", "Channels:", fun _ _ => true⟩

def own : Listing := ⟨"mine", "Your channels:", fun caller c => c.isMember caller⟩

def message (l : Listing) (caller : String) (names : List String) : Sent :=
  if names = [] then ⟨caller, some "No channels found", none, none, none⟩
  else ⟨caller, some ("\n".intercalate names), some l.header, none, none⟩

/-- A channel of this name is stored on the extension, the caller may see it, and it is wanted. -/
def Holds (l : Listing) (p : Privilege) (s : Store) (extension name : String) : Prop :=
  Channel.isChannelName name = true ∧ ∃ a ∈ s.attributes extension, a.name = name ∧
    ∃ c, Channel.ofAttr a = .ok c ∧ c.acl.see.Admits p s.caller (s.fetchRoles s.caller) ∧ l.wanted s.caller c = true

end Listing

def Ascending (names : List String) : Prop :=
  names.Pairwise fun m n => m.toUTF8.data.toList < n.toUTF8.data.toList

theorem Ascending.nodup {names : List String} (h : Ascending names) : names.Nodup := by
  refine List.Pairwise.imp ?_ h
  rintro name _ hlt rfl
  exact List.lt_irrefl _ hlt

/-- Ascending names are determined by which names they are. -/
theorem Ascending.eq_of_mem_iff {names others : List String} (hnames : Ascending names) (hothers : Ascending others)
    (h : ∀ name, name ∈ names ↔ name ∈ others) : names = others := by
  refine List.Perm.eq_of_pairwise ?_ hnames hothers ((List.perm_ext_iff_of_nodup hnames.nodup hothers.nodup).mpr h)
  intro m n _ _ hlt hgt
  exact absurd hgt (List.lt_asymm hlt)

theorem mem_sortedNames {channels : List Channel} {name : String} :
    name ∈ sortedNames channels ↔ ∃ c ∈ channels, c.name = name := by
  rw [sortedNames, List.mem_mergeSort, List.mem_map]

theorem ascending_sortedNames {channels : List Channel} (h : (channels.map Channel.name).Nodup) :
    Ascending (sortedNames channels) := by
  have hle : (sortedNames channels).Pairwise fun m n => decide (m ≤ n) = true := by
    refine List.pairwise_mergeSort ?_ ?_ _
    · intro k m n hkm hmn
      exact decide_eq_true (le_trans (of_decide_eq_true hkm) (of_decide_eq_true hmn))
    · intro m n
      rw [Bool.or_eq_true, decide_eq_true_iff, decide_eq_true_iff]
      exact le_total m n
  have hne : (sortedNames channels).Nodup := (List.mergeSort_perm _ _).nodup_iff.mpr h
  refine (hle.and hne).imp ?_
  rintro m n ⟨hmn, hdistinct⟩
  exact (Text.toUTF8_lt_iff m n).mpr (lt_of_le_of_ne (of_decide_eq_true hmn) hdistinct)

section

variable {p : Privilege} {s t : Store} {player extension name : String}

theorem name_of_seenBy {c : Channel} (h : s.seenBy p player extension name = some c) : c.name = name := by
  unfold Store.seenBy at h
  cases hchannel : s.channel extension name with
  | error e =>
    rw [hchannel] at h
    cases h
  | ok found =>
    obtain ⟨-, -, -, -, hname⟩ := stored_of_channel hchannel
    rw [hchannel] at h
    obtain ⟨-, hfound⟩ := Option.ite_none_right_eq_some.mp h
    cases hfound
    exact hname

/-- Where nothing is made to fail, a channel is seen under its name if its attribute can be read and the access list
admits the player, whatever came of looking up the roles. -/
theorem seenBy_eq_some_iff (hs : s.Reliable) (hextension : extension ≠ "") (hnamed : s.Named extension) (c : Channel) :
    s.seenBy p player extension name = some c ↔
      Channel.isChannelName name = true ∧ ∃ a ∈ s.attributes extension, a.name = name ∧ Channel.ofAttr a = .ok c ∧
        c.acl.see.Admits p player (s.fetchRoles player) := by
  have hchannel (c : Channel) : s.channel extension name = .ok c ↔
      Channel.isChannelName name = true ∧ ∃ a ∈ s.attributes extension, a.name = name ∧ Channel.ofAttr a = .ok c := by
    rw [Store.channel_eq_ok_iff, Store.channel?_eq_some_iff]
    refine and_congr_right fun hname => exists_congr fun a => ?_
    rw [Store.fetch_eq_ok_iff, hs.fault?, hnamed.attr?_eq_some_iff, ← and_assoc (a := a ∈ _)]
    simp [hextension, Channel.ne_empty_of_isChannelName hname]
  have hsee (c : Channel) : s.lets p .see c.acl player = true ↔ c.acl.see.Admits p player (s.fetchRoles player) := by
    rw [Store.lets_eq, decide_eq_true_iff]
    rfl
  have hseen : s.seenBy p player extension name = some c ↔
      s.channel extension name = .ok c ∧ s.lets p .see c.acl player = true := by
    unfold Store.seenBy
    cases s.channel extension name with
    | error e => simp
    | ok found =>
      by_cases hlets : s.lets p .see found.acl player = true
      · simp only [hlets, if_true, Option.some.injEq, Except.ok.injEq, iff_self_and]
        rintro rfl
        exact hlets
      · simp only [hlets, if_false, reduceCtorEq, Except.ok.injEq, false_iff, not_and]
        rintro rfl
        exact hlets
  rw [hseen, hchannel, hsee, and_assoc]
  simp only [← exists_and_right, and_assoc]

/-- The names of the channels that are seen, each once. -/
theorem nodup_names_seenBy (p : Privilege) (s : Store) (player extension : String) {names : List String}
    (h : names.Nodup) :
    ((names.filterMap fun name => s.seenBy p player extension name).map Channel.name).Nodup := by
  rw [List.map_filterMap]
  refine List.Nodup.filterMap ?_ h
  intro m n name hm hn
  obtain ⟨c, hc, rfl⟩ := Option.map_eq_some_iff.mp hm
  obtain ⟨d, hd, hname⟩ := Option.map_eq_some_iff.mp hn
  rw [← name_of_seenBy hc, ← name_of_seenBy hd, hname]

variable (l : Listing)

def shown (p : Privilege) (s : Store) (extension : String) : List Channel :=
  ((((s.attributes extension).map Attr.name).filter Channel.isChannelName).filterMap fun name =>
    s.seenBy p s.caller extension name).filter (l.wanted s.caller)

theorem ascending_shown (hnamed : s.Named extension) : Ascending (sortedNames (shown l p s extension)) := by
  refine ascending_sortedNames ?_
  have hseen := nodup_names_seenBy p s s.caller extension (hnamed.filter Channel.isChannelName)
  exact (List.filter_sublist.map Channel.name).nodup hseen

theorem mem_shown_iff (hs : s.Reliable) (hextension : extension ≠ "") (hnamed : s.Named extension) :
    name ∈ sortedNames (shown l p s extension) ↔ l.Holds p s extension name := by
  rw [mem_sortedNames, Listing.Holds]
  simp only [shown, List.mem_filter, List.mem_filterMap]
  constructor
  · rintro ⟨c, ⟨⟨n, -, hseen⟩, hwanted⟩, rfl⟩
    cases name_of_seenBy hseen
    obtain ⟨hname, a, ha, haname, hread, hadmits⟩ := (seenBy_eq_some_iff hs hextension hnamed c).mp hseen
    exact ⟨hname, a, ha, haname, c, hread, hadmits, hwanted⟩
  · rintro ⟨hname, a, ha, rfl, c, hread, hadmits, hwanted⟩
    have hseen : s.seenBy p s.caller extension a.name = some c :=
      (seenBy_eq_some_iff hs hextension hnamed c).mpr ⟨hname, a, ha, rfl, hread, hadmits⟩
    exact ⟨c, ⟨⟨a.name, ⟨List.mem_map_of_mem ha, hname⟩, hseen⟩, hwanted⟩, name_of_seenBy hseen⟩

/-- What is listed is the same in a world with the attributes in another order. -/
theorem holds_reordered (h : s.Reordered t) : l.Holds p t extension name ↔ l.Holds p s extension name := by
  simp only [Listing.Holds, h.mem_iff, h.caller, h.fetchRoles]

theorem sortedNames_shown_reordered (hs : s.Reliable) (hextension : extension ≠ "") (hnamed : s.Named extension)
    (h : s.Reordered t) : sortedNames (shown l p t extension) = sortedNames (shown l p s extension) := by
  refine (ascending_shown l (h.named hnamed)).eq_of_mem_iff (ascending_shown l hnamed) fun name => ?_
  rw [mem_shown_iff l (h.reliable hs) hextension (h.named hnamed), mem_shown_iff l hs hextension hnamed,
    holds_reordered l h]

theorem listed_eq (hs : s.Reliable) (hextension : extension ≠ "") (hknown : (s.thing? extension).isSome = true) :
    listed p extension l.header l.wanted s =
      (.ok (.string ""), s.deliver (l.message s.caller (sortedNames (shown l p s extension)))) := by
  have hvisible : s.visible p s.caller extension = .ok (((((s.attributes extension).map Attr.name).filter
      Channel.isChannelName).filterMap fun name => s.seenBy p s.caller extension name)) := by
    rw [Store.visible, hs.fetchNames hextension hknown]
  have hempty : sortedNames (shown l p s extension) = [] ↔ shown l p s extension = [] := by
    rw [sortedNames, ← List.length_eq_zero_iff, List.length_mergeSort, List.length_map, List.length_eq_zero_iff]
  rw [listed, hs.fetchCaller]
  dsimp only
  rw [hvisible]
  dsimp only
  rw [← shown]
  by_cases hnone : shown l p s extension = []
  · rw [if_pos hnone, Store.tell, hs.send, Listing.message, if_pos (hempty.mpr hnone)]
    rfl
  · rw [if_neg hnone, Store.tell, hs.send, Listing.message, if_neg (mt hempty.mp hnone), NameList.joinWith_eq]
    rfl

end

/-- The names that are told begin with their mark, so they are never taken for the words that say there are none. -/
theorem Listing.message_eq_none_iff (l : Listing) (caller : String) {names : List String}
    (hnames : ∀ name ∈ names, Channel.isChannelName name = true) :
    (l.message caller names).message = some "No channels found" ↔ names = [] := by
  unfold Listing.message
  split
  · next hnone => simp [hnone]
  · next hsome =>
    refine iff_of_false ?_ hsome
    obtain ⟨name, rest, rfl⟩ := List.exists_cons_of_ne_nil hsome
    intro htold
    have hhead : ("\n".intercalate (name :: rest)).toList.head? = some '#' := by
      have hname : name.toList.head? = some '#' := of_decide_eq_true (hnames name List.mem_cons_self)
      rw [String.toList_intercalate]
      cases rest with
      | nil => rwa [List.map_cons, List.map_nil, List.intercalate_singleton]
      | cons other rest =>
        rw [List.map_cons, List.map_cons, List.intercalate_cons_cons, List.append_assoc, List.head?_append, hname]
        rfl
    rw [Option.some.inj htold] at hhead
    exact absurd hhead (by decide)

private theorem outcome_listing (config : Config) (call : Call) {l : Listing} (hl : l = .all ∨ l = .own)
    (hmethod : call.method = "chat") (harguments : call.arguments = [l.subcommand]) :
    ∃ handler, plugin.handler? config call = some handler ∧
      ∀ s, outcome handler s = listed config.privilege call.extension l.header l.wanted s := by
  rcases hl with rfl | rfl
  · refine ⟨_, handler?_talk hmethod harguments rfl, ?_⟩
    intro s
    simp only [TalkCommand.run, harguments]
    exact outcome_list ⟨call, config⟩ s
  · refine ⟨_, handler?_talk hmethod harguments rfl, ?_⟩
    intro s
    simp only [TalkCommand.run, harguments]
    exact outcome_mine ⟨call, config⟩ s

/-- A listing tells the caller the names, in ascending order and each once, of exactly the channels that can be read,
that the caller may see and that are wanted; it says that there are none if and only if there are none.  It comes
through whatever else the extension holds, and it is the same for every order of the attributes. -/
theorem listing_exact (config : Config) (l : Listing) (hl : l = .all ∨ l = .own) (input : Text.Raw) (call : Call)
    (s : Store) (hcall : Plugin.callOf? input = some call) (hmethod : call.method = "chat")
    (harguments : call.arguments = [l.subcommand]) (hs : s.Reliable) (hextension : call.extension ≠ "")
    (hknown : (s.thing? call.extension).isSome = true) (hnamed : s.Named call.extension) :
    ∃ names, Ascending names ∧
      (∀ name, name ∈ names ↔ l.Holds config.privilege s call.extension name) ∧
      ((l.message s.caller names).message = some "No channels found" ↔
        ∀ name, ¬ l.Holds config.privilege s call.extension name) ∧
      ∀ t, s.Reordered t →
        (plugin.serve config Store.exchange input t).value.isSuccess = true ∧
          (plugin.serve config Store.exchange input t).state =
            { t with sent := t.sent ++ [l.message s.caller names] } := by
  obtain ⟨handler, hhandler, houtcome⟩ := outcome_listing config call hl hmethod harguments
  obtain ⟨id, hserved⟩ := Plugin.serve_handled hcall hhandler
  have hmem (name : String) : name ∈ sortedNames (shown l config.privilege s call.extension) ↔
      l.Holds config.privilege s call.extension name := mem_shown_iff l hs hextension hnamed
  refine ⟨_, ascending_shown l hnamed, hmem, ?_, ?_⟩
  · rw [l.message_eq_none_iff s.caller fun name hname => ((hmem name).mp hname).1, List.eq_nil_iff_forall_not_mem]
    exact forall_congr' fun name => not_congr (hmem name)
  · intro t ht
    have hlisted := listed_eq l (p := config.privilege) (ht.reliable hs) hextension
      ((ht.known call.extension).trans hknown)
    rw [ht.caller, sortedNames_shown_reordered l hs hextension hnamed ht] at hlisted
    obtain ⟨hvalue, hstate⟩ := hserved t
    rw [houtcome, hlisted] at hvalue hstate
    rw [hvalue, Plugin.isSuccess_respond]
    exact ⟨rfl, hstate⟩

def listChannels : Text.Raw := Plugin.textOfCall "chat" "\"list\""

def harbor : Store :=
  ((Store.empty.withAttr "ext" (.list "#port" [])).withAttr "ext" (.string "#note" "")).withAttr "ext"
    (.list "#dock" [.string "members" "Alice"])

/-- Both channels are listed. -/
theorem listing_exact_harbor :
    ∃ names, Ascending names ∧ ("#port" ∈ names ∧ "#dock" ∈ names ∧ "#note" ∉ names) ∧
      (plugin.serve Config.standard Store.exchange listChannels harbor).state =
        { harbor with sent := harbor.sent ++ [Listing.all.message "caller" names] } := by
  have hcall : Plugin.callOf? listChannels = some ⟨"call", "chat", "ext", ["list"]⟩ := by
    simp only [listChannels, Plugin.textOfCall, Text.Raw.ofString, String.toList_append, String.reduceToList]
    decide +kernel
  have hattributes : harbor.attributes "ext" =
      [.list "#port" [], .string "#note" "", .list "#dock" [.string "members" "Alice"]] := by decide
  have hholds {a : Attr} {c : Channel} (ha : a ∈ harbor.attributes "ext")
      (hname : Channel.isChannelName a.name = true) (hread : Channel.ofAttr a = .ok c) (hacl : c.acl = .unrestricted) :
      Listing.all.Holds Config.standard.privilege harbor "ext" a.name := by
    refine ⟨hname, a, ha, rfl, c, hread, ?_, rfl⟩
    rw [hacl]
    exact .inr ⟨.inl rfl, .inl rfl⟩
  have hnamed : harbor.Named "ext" :=
    Store.named_withAttr (Store.named_withAttr (Store.named_withAttr Store.named_empty _ _) _ _) _ _ "ext"
  obtain ⟨names, hascending, hmem, -, hlisted⟩ := listing_exact Config.standard .all (.inl rfl) listChannels _ harbor
    hcall rfl rfl rfl (by decide) (by decide) hnamed
  refine ⟨names, hascending, ⟨?_, ?_, ?_⟩, (hlisted harbor (.refl harbor)).2⟩
  · have hread : Channel.ofAttr (.list "#port" []) = .ok ⟨"#port", [], .unrestricted⟩ :=
      (Channel.ofAttr_eq_ok_iff _ _).mpr ⟨_, Attr.listValue_list _ _, by decide⟩
    exact (hmem _).mpr (hholds (by simp [hattributes]) (by decide) hread rfl)
  · have hread : Channel.ofAttr (.list "#dock" [.string "members" "Alice"]) =
        .ok ⟨"#dock", ["Alice"], .unrestricted⟩ :=
      (Channel.ofAttr_eq_ok_iff _ _).mpr ⟨_, Attr.listValue_list _ _, by decide⟩
    exact (hmem _).mpr (hholds (by simp [hattributes]) (by decide) hread rfl)
  · intro hnote
    obtain ⟨-, a, ha, hname, c, hread, -⟩ := (hmem _).mp hnote
    obtain ⟨fields, hfields, -⟩ := (Channel.ofAttr_eq_ok_iff a c).mp hread
    rw [hattributes] at ha
    simp only [List.mem_cons, List.not_mem_nil, or_false] at ha
    rcases ha with rfl | rfl | rfl
    · exact absurd hname (by decide)
    · have hrefused : (Attr.string "#note" "").listValue = .error (.typeMismatch "#note" .attrList .string) := rfl
      cases hrefused.symm.trans hfields
    · exact absurd hname (by decide)

def listNameless : Text.Raw := Plugin.textOfNamelessCall "chat" "\"list\""

/-- A thing with an empty id may be in the world, but its attributes cannot be asked for: then the call fails, and the
caller is told nothing. -/
theorem nameless_listing_refused :
    ∃ call, Plugin.callOf? listNameless = some call ∧ call.method = "chat" ∧ call.arguments = ["list"] ∧
      (Store.empty.withThing "").Reliable ∧ ((Store.empty.withThing "").thing? call.extension).isSome = true ∧
      (Store.empty.withThing "").Named call.extension ∧
      let played := plugin.serve Config.standard Store.exchange listNameless (Store.empty.withThing "")
      played.value.isSuccess = false ∧ played.state.sent = [] := by
  have hcall : Plugin.callOf? listNameless = some ⟨"call", "chat", "", ["list"]⟩ := by
    simp only [listNameless, Plugin.textOfNamelessCall, Text.Raw.ofString, String.toList_append, String.reduceToList]
    decide +kernel
  have hnames : (Store.empty.withThing "").fetchNames "" = .error (.parameters (.empty "thingId")) := rfl
  have hall : Listing.all = .all ∨ Listing.all = .own := .inl rfl
  obtain ⟨handler, hhandler, houtcome⟩ :=
    outcome_listing Config.standard ⟨"call", "chat", "", ["list"]⟩ hall rfl rfl
  obtain ⟨id, hserved⟩ := Plugin.serve_handled hcall hhandler
  obtain ⟨hvalue, hstate⟩ := hserved (Store.empty.withThing "")
  have hlisted : listed Config.standard.privilege "" Listing.all.header Listing.all.wanted (Store.empty.withThing "") =
      (.error (.store (.parameters (.empty "thingId"))), Store.empty.withThing "") := by
    simp only [listed, Store.visible, hnames]
    rfl
  refine ⟨_, hcall, rfl, rfl, rfl, rfl, Store.named_withThing Store.named_empty "" "", ?_, ?_⟩
  · rw [hvalue, houtcome, hlisted]
    rfl
  · rw [hstate, houtcome, hlisted]
    rfl

end WorldPlugins.Chat
