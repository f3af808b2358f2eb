import WorldPlugins.Proofs.Chat.Channel
import WorldPlugins.Proofs.Chat.Commands
import WorldPlugins.Proofs.Store.Changes

/-! # The chat plugin as a table of channels

Seen from outside, the plugin keeps a list of channels and each command does something simple to it.  The world
represents that list as the channels would be written; every command leads from the representation of one list to
the representation of the next, so by induction every run does.
-/

namespace WorldPlugins.Chat

/-- Channels, in the order in which they were made. -/
abbrev Directory := List Channel

namespace Directory

def named? (name : String) (d : Directory) : Option Channel := d.find? fun c => c.name == name

def put : Directory → Channel → Directory
  | [], c => [c]
  | other :: d, c => if other.name = c.name then c :: d else other :: put d c

def update (name : String) (change : Channel → Channel) (d : Directory) : Directory :=
  match named? name d with
  | some c => put d (change c)
  | none => d

/-- The first channel of this name, if there is one, becomes what the relation makes of it. -/
def Updates (name : String) (becomes : Channel → Channel → Prop) (d e : Directory) : Prop :=
  match named? name d with
  | some c => ∃ changed, becomes c changed ∧ e = put d changed
  | none => e = d

/-- What a command makes of a table.  `may` says what the access lists of a channel let a player do. -/
def Steps (may : Action → AccessControl → String → Bool) (caller : String) (d : Directory) (command : Command)
    (e : Directory) : Prop :=
  match command with
  | .create name => e = if Channel.isChannelName name ∧ named? name d = none then d ++ [Channel.empty name] else d
  | .delete name => e = d.filter fun c => c.name ≠ name
  | .restrict action name arguments => d.Updates name (AfterSettings action arguments) e
  | .add player name =>
    e = d.update name fun c =>
      if NameList.isStorable player ∧ player ∉ c.members then { c with members := c.members ++ [player] } else c
  | .remove player name =>
    e = d.update name fun c =>
      if NameList.isStorable player then { c with members := c.members.filter (· ≠ player) } else c
  | .join name =>
    e = d.update name fun c =>
      if may .see c.acl caller ∧ may .join c.acl caller ∧ caller ∉ c.members then
        { c with members := c.members ++ [caller] }
      else c
  | .leave name =>
    e = d.update name fun c =>
      if may .see c.acl caller then { c with members := c.members.filter (· ≠ caller) } else c
  | .welcome guest =>
    e = d.update guestChannel fun c =>
      if guest ∉ c.members then { c with members := c.members ++ [guest] } else c
  | .observe => e = d

theorem Steps.unique {may : Action → AccessControl → String → Bool} {caller : String} {d e f : Directory}
    {command : Command} (h : d.Steps may caller command e) (k : d.Steps may caller command f) : e = f := by
  cases command with
  | restrict action name arguments =>
    change d.Updates name (AfterSettings action arguments) e at h
    change d.Updates name (AfterSettings action arguments) f at k
    unfold Updates at h k
    split at h
    · next c hfound =>
      obtain ⟨changed, hchanged, rfl⟩ := h
      rw [hfound] at k
      obtain ⟨other, hother, rfl⟩ := k
      rw [hchanged.unique hother]
    · next hnone =>
      rw [hnone] at k
      rw [h, k]
  | _ => exact Eq.trans h (Eq.symm k)

variable {name : String} {c other : Channel} {d : Directory}

theorem mem_of_named? (h : named? name d = some c) : c ∈ d := List.mem_of_find?_eq_some h

theorem name_of_named? (h : named? name d = some c) : c.name = name := by
  simpa using List.find?_some h

theorem eq_or_mem_of_mem_put (h : other ∈ put d c) : other = c ∨ other ∈ d := by
  induction d with
  | nil => exact .inl (List.mem_singleton.mp h)
  | cons first d ih =>
    rw [put] at h
    split at h
    · rcases List.mem_cons.mp h with h | h
      · exact .inl h
      · exact .inr (List.mem_cons_of_mem first h)
    · rcases List.mem_cons.mp h with h | h
      · exact .inr (h ▸ List.mem_cons_self)
      · exact (ih h).imp_right (List.mem_cons_of_mem first)

/-- A channel that is put where it was found stays there. -/
theorem put_of_named? (h : named? name d = some c) : put d c = d := by
  induction d with
  | nil => cases h
  | cons first d ih =>
    have hname := name_of_named? h
    rw [named?, List.find?_cons] at h
    split at h
    · cases h
      simp [put]
    · next hfirst =>
      have hne : first.name ≠ c.name := by
        rw [hname]
        simpa using hfirst
      rw [put, if_neg hne, ih h]

theorem put_of_none (h : named? c.name d = none) : put d c = d ++ [c] := by
  induction d with
  | nil => rfl
  | cons first d ih =>
    rw [named?, List.find?_cons] at h
    split at h
    · cases h
    · next hfirst =>
      have hne : first.name ≠ c.name := by simpa using hfirst
      rw [put, if_neg hne, ih h, List.cons_append]

theorem map_toAttr_put (d : Directory) (c : Channel) :
    (put d c).map Channel.toAttr = Attr.upsert (d.map Channel.toAttr) c.toAttr := by
  induction d with
  | nil => rfl
  | cons first d ih =>
    have hfirst : first.toAttr.name = first.name := rfl
    have hc : c.toAttr.name = c.name := rfl
    rw [put, List.map_cons, Attr.upsert, hfirst, hc]
    split
    · rfl
    · rw [List.map_cons, ih]

theorem update_of_none (h : named? name d = none) (change : Channel → Channel) : update name change d = d := by
  rw [update, h]

theorem update_of_some (h : named? name d = some c) (change : Channel → Channel) :
    update name change d = put d (change c) := by
  rw [update, h]

end Directory

def channels (extension : String) (s : Store) : Directory :=
  ((s.attributes extension).filter fun a => Channel.isChannelName a.name).filterMap fun a =>
    (Channel.ofAttr a).toOption

/-- A world in which nothing fails and every channel of an extension is written as channels are. -/
structure Canonical (extension : String) (s : Store) : Prop where
  failures : s.failures = []
  stored : ∀ a ∈ s.attributes extension, Channel.isChannelName a.name →
    ∃ c : Channel, c.WellFormed ∧ c.toAttr = a

/-- A world in which nothing fails, the channels of an extension are those of a table, and `may` says what their
access lists allow. -/
structure Represents (p : Privilege) (may : Action → AccessControl → String → Bool) (extension : String)
    (d : Directory) (s : Store) : Prop where
  failures : s.failures = []
  lets : ∀ action acl player, s.lets p action acl player = may action acl player
  stored : (s.attributes extension).filter (fun a => Channel.isChannelName a.name) = d.map Channel.toAttr
  wellFormed : ∀ c ∈ d, c.WellFormed

variable {p : Privilege} {may : Action → AccessControl → String → Bool} {extension name : String}
variable {d e : Directory} {c : Channel} {s t : Store}

private theorem eq_map_toAttr {attrs : List Attr} (h : ∀ a ∈ attrs, ∃ c : Channel, c.WellFormed ∧ c.toAttr = a) :
    attrs = (attrs.filterMap fun a => (Channel.ofAttr a).toOption).map Channel.toAttr ∧
      ∀ c ∈ attrs.filterMap fun a => (Channel.ofAttr a).toOption, c.WellFormed := by
  induction attrs with
  | nil => exact ⟨rfl, fun c hc => absurd hc List.not_mem_nil⟩
  | cons a attrs ih =>
    obtain ⟨c, hc, rfl⟩ := h a List.mem_cons_self
    obtain ⟨hattrs, hwell⟩ := ih fun b hb => h b (List.mem_cons_of_mem _ hb)
    have hread : (Channel.ofAttr c.toAttr).toOption = some c := by rw [Channel.ofAttr_toAttr hc, Except.toOption]
    rw [List.filterMap_cons, hread]
    refine ⟨by rw [List.map_cons, ← hattrs], ?_⟩
    intro other hother
    rcases List.mem_cons.mp hother with rfl | hother
    · exact hc
    · exact hwell other hother

theorem Canonical.represents (h : Canonical extension s) (p : Privilege) :
    Represents p (fun action acl player => s.lets p action acl player) extension (channels extension s) s := by
  have hstored : ∀ a ∈ (s.attributes extension).filter fun a => Channel.isChannelName a.name,
      ∃ c : Channel, c.WellFormed ∧ c.toAttr = a := by
    intro a ha
    obtain ⟨ha, hname⟩ := List.mem_filter.mp ha
    exact h.stored a ha hname
  obtain ⟨hattrs, hwell⟩ := eq_map_toAttr hstored
  exact ⟨h.failures, fun _ _ _ => rfl, hattrs, hwell⟩

namespace Represents

theorem canonical (h : Represents p may extension d s) : Canonical extension s := by
  refine ⟨h.failures, ?_⟩
  intro a ha hname
  have hmem : a ∈ (s.attributes extension).filter fun a => Channel.isChannelName a.name :=
    List.mem_filter.mpr ⟨ha, hname⟩
  rw [h.stored] at hmem
  obtain ⟨c, hc, rfl⟩ := List.mem_map.mp hmem
  exact ⟨c, h.wellFormed c hc, rfl⟩

theorem channels_eq (h : Represents p may extension d s) : channels extension s = d := by
  rw [channels, h.stored, List.filterMap_map]
  have hread : ∀ c ∈ d, ((fun a => (Channel.ofAttr a).toOption) ∘ Channel.toAttr) c = some c := by
    intro c hc
    simp [Channel.ofAttr_toAttr (h.wellFormed c hc), Except.toOption]
  rw [List.filterMap_congr hread, List.filterMap_some]

theorem of_stored (h : Represents p may extension d s) (hfailures : t.failures = s.failures)
    (hroles : t.roles = s.roles)
    (hstored : (t.attributes extension).filter (fun a => Channel.isChannelName a.name) = e.map Channel.toAttr)
    (hwell : ∀ c ∈ e, c.WellFormed) : Represents p may extension e t := by
  refine ⟨hfailures.trans h.failures, ?_, hstored, hwell⟩
  intro action acl player
  rw [Store.lets_congr p action acl player hfailures hroles]
  exact h.lets action acl player

theorem of_told (h : Represents p may extension d s) (ht : Told s t) : Represents p may extension d t := by
  obtain ⟨messages, rfl⟩ := ht
  exact h.of_stored rfl rfl h.stored h.wellFormed

theorem withCaller (h : Represents p may extension d s) (caller : String) :
    Represents p may extension d (s.withCaller caller) := h.of_stored rfl rfl h.stored h.wellFormed

theorem fault?_eq (h : Represents p may extension d s) (method : StoreMethod) : s.fault? method = none := by
  rw [Store.fault?, h.failures]
  rfl

theorem isChannelName (h : Represents p may extension d s) (hc : c ∈ d) : Channel.isChannelName c.name = true := by
  have hmem : c.toAttr ∈ (s.attributes extension).filter fun a => Channel.isChannelName a.name := by
    rw [h.stored]
    exact List.mem_map_of_mem hc
  exact (List.mem_filter.mp hmem).2

theorem named?_eq_none (h : Represents p may extension d s) (hname : ¬ Channel.isChannelName name = true) :
    d.named? name = none := by
  refine List.find?_eq_none.mpr fun c hc hsame => hname ?_
  have hchannel := h.isChannelName hc
  simp only [beq_iff_eq] at hsame
  rwa [hsame] at hchannel

theorem attr?_eq (h : Represents p may extension d s) (hname : Channel.isChannelName name = true) :
    s.attr? extension name = (d.named? name).map Channel.toAttr := by
  have hfind : s.attr? extension name =
      ((s.attributes extension).filter fun a => Channel.isChannelName a.name).find? fun a => a.name == name := by
    rw [Store.attr?, List.find?_filter]
    congr 1
    funext a
    by_cases ha : a.name = name
    · simp [ha, hname]
    · simp [ha]
  rw [hfind, h.stored, List.find?_map]
  rfl

private theorem filter_of_notMem {names : List String} {player : String} (h : player ∉ names) :
    names.filter (· ≠ player) = names := by
  apply List.filter_eq_self.mpr
  intro name hname
  have hne : name ≠ player := fun hsame => h (hsame ▸ hname)
  simpa using hne

theorem update_of_told (h : Represents p may extension d s) (hfound : d.named? name = some c)
    (change : Channel → Channel) (hsame : change c = c) (ht : Told s t) :
    Represents p may extension (d.update name change) t := by
  rw [Directory.update_of_some hfound, hsame, Directory.put_of_named? hfound]
  exact h.of_told ht

private theorem storable_append (h : Represents p may extension d s) (hfound : d.named? name = some c)
    {player : String} (hplayer : NameList.isStorable player = true) (hmember : player ∉ c.members) :
    (c.members ++ [player]).Nodup ∧ Channel.Storable (c.members ++ [player]) := by
  have hwell := h.wellFormed c (Directory.mem_of_named? hfound)
  constructor
  · rw [List.nodup_append]
    refine ⟨hwell.members_nodup, by simp, ?_⟩
    intro member hmem other hother
    rw [List.mem_singleton.mp hother]
    rintro rfl
    exact hmember hmem
  · intro member hmem
    rcases List.mem_append.mp hmem with hmem | hmem
    · exact hwell.members member hmem
    · rw [List.mem_singleton.mp hmem]
      exact hplayer

private theorem storable_erase (h : Represents p may extension d s) (hfound : d.named? name = some c)
    (player : String) :
    c.removeMember player = { c with members := c.members.filter (· ≠ player) } ∧
      (c.members.filter (· ≠ player)).Nodup ∧ Channel.Storable (c.members.filter (· ≠ player)) := by
  have hwell := h.wellFormed c (Directory.mem_of_named? hfound)
  refine ⟨?_, hwell.members_nodup.filter _, fun member hmem => hwell.members member (List.mem_of_mem_filter hmem)⟩
  rw [Channel.removeMember, hwell.members_nodup.erase_eq_filter]
  congr 2
  funext member
  by_cases hsame : member = player
  · simp [hsame]
  · simp [hsame]

/-- Writing a channel in the world puts it into the table. -/
theorem withAttr_toAttr (h : Represents p may extension d s) (hname : Channel.isChannelName c.name = true)
    (hc : c.WellFormed) : Represents p may extension (d.put c) (s.withAttr extension c.toAttr) := by
  have hchannel : Channel.isChannelName c.toAttr.name = true := hname
  have hfilter : (Attr.upsert (s.attributes extension) c.toAttr).filter (fun a => Channel.isChannelName a.name) =
      Attr.upsert ((s.attributes extension).filter fun a => Channel.isChannelName a.name) c.toAttr :=
    Attr.filter_upsert Channel.isChannelName _ hchannel
  refine h.of_stored rfl rfl ?_ ?_
  · rw [Store.attributes_withAttr_self, hfilter, h.stored, Directory.map_toAttr_put]
  · intro other hother
    rcases Directory.eq_or_mem_of_mem_put hother with rfl | hother
    · exact hc
    · exact h.wellFormed other hother

variable (hextension : extension ≠ "")

include hextension

/-- Looking a channel up in the world is looking it up in the table. -/
theorem channel?_eq (h : Represents p may extension d s) (hname : Channel.isChannelName name = true) :
    s.channel? extension name = .ok (d.named? name) := by
  have hempty := Channel.ne_empty_of_isChannelName hname
  have hattr := h.attr?_eq hname
  cases hfound : d.named? name with
  | some c =>
    rw [hfound] at hattr
    refine (s.channel?_eq_some_iff extension name c).mpr ⟨hname, c.toAttr, ?_, ?_⟩
    · exact (s.fetch_eq_ok_iff extension name _).mpr ⟨hextension, hempty, h.fault?_eq .getAttr, hattr⟩
    · exact Channel.ofAttr_toAttr (h.wellFormed c (Directory.mem_of_named? hfound))
  | none =>
    rw [hfound, Store.attr?, Store.attributes] at hattr
    have hfetch : ∃ e, s.fetch extension name = .error e ∧ e.isNotFound = true := by
      rw [Store.fetch, if_neg hextension, if_neg hempty, h.fault?_eq]
      cases hthing : s.thing? extension with
      | none => exact ⟨_, rfl, rfl⟩
      | some attrs =>
        rw [hthing] at hattr
        dsimp only [Option.getD_some, Option.map_none] at hattr ⊢
        rw [hattr]
        exact ⟨_, rfl, rfl⟩
    obtain ⟨e, hfetch, hnotFound⟩ := hfetch
    rw [Store.channel?, if_pos hname, hfetch]
    simp [hnotFound]

theorem channel_of_named? (h : Represents p may extension d s) (hfound : d.named? name = some c) :
    s.channel extension name = .ok c := by
  have hname := h.isChannelName (Directory.mem_of_named? hfound)
  rw [Directory.name_of_named? hfound] at hname
  rw [s.channel_eq_ok_iff, h.channel?_eq hextension hname, hfound]

theorem channel_of_none (h : Represents p may extension d s) (hnone : d.named? name = none) :
    ∃ e, s.channel extension name = .error e := by
  by_cases hname : Channel.isChannelName name = true
  · rw [Store.channel, h.channel?_eq hextension hname, hnone]
    exact ⟨_, rfl⟩
  · rw [Store.channel, Store.channel?, if_neg hname]
    exact ⟨_, rfl⟩

theorem write_toAttr (h : Represents p may extension d s) (hname : Channel.isChannelName c.name = true)
    (hc : c.WellFormed) :
    ∃ t, s.write extension c.toAttr = (.ok (), t) ∧ Represents p may extension (d.put c) t := by
  have hempty : c.toAttr.name ≠ "" := by
    intro hempty
    have hcname : c.toAttr.name = c.name := rfl
    rw [← hcname, hempty] at hname
    cases hname
  refine ⟨s.withAttr extension c.toAttr, ?_, h.withAttr_toAttr hname hc⟩
  rw [Store.write, if_neg hextension, if_neg hempty, h.fault?_eq]

/-- Writing the members of a channel in the world changes them in the table. -/
theorem writeField_members (h : Represents p may extension d s) (hfound : d.named? name = some c)
    {names : List String} (hnodup : names.Nodup) (hnames : Channel.Storable names) :
    ∃ t, s.writeField extension c.name (Channel.namesField Channel.membersKey names) = (.ok (), t) ∧
      Represents p may extension (d.put { c with members := names }) t := by
  have hmem := Directory.mem_of_named? hfound
  have hname := h.isChannelName hmem
  obtain ⟨a, b, hattr, hfield, hwrite⟩ := writeField_of_channel (h.channel_of_named? hextension hfound) names
  have hstored := h.attr?_eq hname
  rw [Directory.name_of_named? hfound, hfound, hattr] at hstored
  cases hstored
  cases (Channel.withField_toAttr c names).symm.trans hfield
  rw [h.fault?_eq] at hwrite
  have hwell : Channel.WellFormed { c with members := names } := (h.wellFormed c hmem).withMembers hnodup hnames
  exact ⟨_, hwrite, h.withAttr_toAttr (c := { c with members := names }) hname hwell⟩

private theorem created_step (h : Represents p may extension d s) (caller name : String) :
    ∃ e, d.Steps may caller (.create name) e ∧ Represents p may extension e (created extension name s).2 := by
  refine ⟨_, rfl, ?_⟩
  rw [created]
  by_cases hname : Channel.isChannelName name = true
  · rw [h.channel?_eq hextension hname]
    cases hfound : d.named? name with
    | some c => simpa using h
    | none =>
      obtain ⟨t, hwrite, ht⟩ :=
        h.write_toAttr (c := Channel.empty name) hextension hname (Channel.wellFormed_empty name)
      have hput : d.put (Channel.empty name) = d ++ [Channel.empty name] := Directory.put_of_none hfound
      rw [if_pos ⟨hname, rfl⟩, ← hput]
      dsimp only
      rw [hwrite]
      exact ht.of_told (told_send _ _ t)
  · rw [Store.channel?, if_neg hname, if_neg fun hboth => hname hboth.1]
    exact h

private theorem deleted_step (h : Represents p may extension d s) (caller name : String) :
    ∃ e, d.Steps may caller (.delete name) e ∧ Represents p may extension e (deleted extension name s).2 := by
  refine ⟨_, rfl, ?_⟩
  rw [deleted]
  have habsent (hnone : d.named? name = none) : d.filter (fun c => c.name ≠ name) = d := by
    apply List.filter_eq_self.mpr
    intro c hc
    have hne := List.find?_eq_none.mp hnone c hc
    simpa using hne
  by_cases hname : Channel.isChannelName name = true
  · rw [h.channel?_eq hextension hname]
    cases hfound : d.named? name with
    | none =>
      rw [habsent hfound]
      exact h
    | some c =>
      have hempty := Channel.ne_empty_of_isChannelName hname
      have hattr := h.attr?_eq hname
      rw [hfound] at hattr
      have hthing := s.thing?_eq_some_of_attr? extension name hattr
      dsimp only
      rw [Store.remove, if_neg hextension, if_neg hempty, h.fault?_eq, hthing]
      have hremoved : Represents p may extension (d.filter fun c => c.name ≠ name) (s.without extension name) := by
        refine h.of_stored rfl rfl ?_ fun c hc => h.wellFormed c (List.mem_of_mem_filter hc)
        rw [Store.attributes_without_self, List.filter_comm, h.stored, List.filter_map]
        congr 1
        apply List.filter_congr
        intro other _
        have hother : other.toAttr.name = other.name := rfl
        by_cases hsame : other.name = name
        · simp [hother, hsame]
        · simp [hother, hsame]
      exact hremoved.of_told (told_send _ _ _)
  · rw [Store.channel?, if_neg hname, habsent (h.named?_eq_none hname)]
    exact h

private theorem restricted_step (h : Represents p may extension d s) (caller : String) (action : Action)
    (name : String) (arguments : List String) :
    ∃ e, d.Steps may caller (.restrict action name arguments) e ∧
      Represents p may extension e (restricted extension action name arguments s).2 := by
  have hsteps {e : Directory} (he : d.Updates name (AfterSettings action arguments) e) :
      d.Steps may caller (.restrict action name arguments) e := he
  rw [restricted]
  cases hfound : d.named? name with
  | none =>
    obtain ⟨e, he⟩ := h.channel_of_none hextension hfound
    rw [he]
    exact ⟨d, hsteps (by rw [Directory.Updates, hfound]), h⟩
  | some c =>
    have hmem := Directory.mem_of_named? hfound
    rw [h.channel_of_named? hextension hfound]
    dsimp only
    cases hchanged : c.applyArguments action arguments with
    | error e =>
      refine ⟨d, hsteps ?_, h⟩
      rw [Directory.Updates, hfound]
      exact ⟨c, afterSettings_of_error hchanged, (Directory.put_of_named? hfound).symm⟩
    | ok changed =>
      obtain ⟨hname, hwell⟩ := Channel.wellFormed_applyArguments hchanged (h.wellFormed c hmem)
      have hchannel : Channel.isChannelName changed.name = true := by
        rw [hname]
        exact h.isChannelName hmem
      obtain ⟨t, hwrite, ht⟩ := h.write_toAttr hextension hchannel hwell
      dsimp only
      rw [hwrite]
      refine ⟨d.put changed, hsteps ?_, ht.of_told (told_send _ _ t)⟩
      rw [Directory.Updates, hfound]
      exact ⟨changed, afterSettings_of_ok hchanged, rfl⟩

/-- A channel found in the table keeps its place when its members are written. -/
theorem update_of_write (h : Represents p may extension d s) (hfound : d.named? name = some c)
    {change : Channel → Channel} {names : List String} (hchange : change c = { c with members := names })
    (hnodup : names.Nodup) (hnames : Channel.Storable names) :
    Represents p may extension (d.update name change)
      (answered (s.writeField extension c.name (Channel.namesField Channel.membersKey names))).2 := by
  obtain ⟨t, hwrite, ht⟩ := h.writeField_members hextension hfound hnodup hnames
  rw [Directory.update_of_some hfound, hchange, hwrite]
  exact ht

/-- A player who is made a member of a channel comes last, and one who is a member already stays where they are. -/
private theorem update_of_addition (h : Represents p may extension d s) (hfound : d.named? name = some c)
    {player : String} (hplayer : NameList.isStorable player = true) {change : Channel → Channel}
    (hchange : change c = if player ∉ c.members then { c with members := c.members ++ [player] } else c)
    {done : Except PluginError Json × Store} (hdone : Told s done.2) :
    Represents p may extension (d.update name change)
      (if c.isMember player then done
        else answered (s.writeField extension c.name (c.addMember player).membersField)).2 := by
  by_cases hmember : player ∈ c.members
  · rw [if_pos ((c.isMember_iff _).mpr hmember)]
    exact h.update_of_told hfound _ (hchange.trans (if_neg (not_not.mpr hmember))) hdone
  · rw [if_neg ((c.isMember_iff _).not.mpr hmember)]
    obtain ⟨hnodup, hnames⟩ := h.storable_append hfound hplayer hmember
    exact h.update_of_write hextension hfound (hchange.trans (if_pos hmember)) hnodup hnames

private theorem update_of_removal (h : Represents p may extension d s) (hfound : d.named? name = some c)
    {player : String} {change : Channel → Channel}
    (hchange : change c = { c with members := c.members.filter (· ≠ player) })
    {done : Except PluginError Json × Store} (hdone : Told s done.2) :
    Represents p may extension (d.update name change)
      (if c.isMember player then answered (s.writeField extension c.name (c.removeMember player).membersField)
        else done).2 := by
  by_cases hmember : player ∈ c.members
  · rw [if_pos ((c.isMember_iff _).mpr hmember)]
    obtain ⟨hremoved, hnodup, hnames⟩ := h.storable_erase hfound player
    rw [hremoved]
    exact h.update_of_write hextension hfound hchange hnodup hnames
  · rw [if_neg ((c.isMember_iff _).not.mpr hmember)]
    exact h.update_of_told hfound _ (by rw [hchange, filter_of_notMem hmember]) hdone

private theorem seen_of_named? (h : Represents p may extension d s) (hfound : d.named? name = some c) :
    s.seen p extension name =
      if may .see c.acl s.caller then .ok (c, s.caller) else .error (.refused (.channelNotFound name)) := by
  have hcaller : s.fetchCaller = .ok s.caller := by rw [Store.fetchCaller, h.fault?_eq]
  rw [Store.seen, h.channel_of_named? hextension hfound, hcaller]
  simp only [h.lets]

private theorem seen_of_none (h : Represents p may extension d s) (hnone : d.named? name = none) :
    ∃ e, s.seen p extension name = .error e := by
  obtain ⟨e, he⟩ := h.channel_of_none hextension hnone
  exact ⟨e, by rw [Store.seen, he]⟩

private theorem joined_step (h : Represents p may extension d s) (hcaller : NameList.isStorable s.caller = true)
    (name : String) :
    ∃ e, d.Steps may s.caller (.join name) e ∧ Represents p may extension e (joined p extension name s).2 := by
  refine ⟨_, rfl, ?_⟩
  rw [joined]
  cases hfound : d.named? name with
  | none =>
    obtain ⟨e, he⟩ := h.seen_of_none hextension hfound
    rw [he, Directory.update_of_none hfound]
    exact h
  | some c =>
    rw [h.seen_of_named? hextension hfound]
    by_cases hsee : may .see c.acl s.caller = true
    · rw [if_pos hsee]
      dsimp only
      rw [h.lets]
      by_cases hjoin : may .join c.acl s.caller = true
      · rw [if_pos hjoin]
        refine h.update_of_addition hextension hfound hcaller ?_ ?_
        · simp [hsee, hjoin]
        · exact told_send _ _ s
      · rw [if_neg hjoin]
        exact h.update_of_told hfound _ (by simp [hjoin]) (Told.refl s)
    · rw [if_neg hsee]
      exact h.update_of_told hfound _ (by simp [hsee]) (Told.refl s)

private theorem left_step (h : Represents p may extension d s) (name : String) :
    ∃ e, d.Steps may s.caller (.leave name) e ∧ Represents p may extension e (left p extension name s).2 := by
  refine ⟨_, rfl, ?_⟩
  rw [left]
  cases hfound : d.named? name with
  | none =>
    obtain ⟨e, he⟩ := h.seen_of_none hextension hfound
    rw [he, Directory.update_of_none hfound]
    exact h
  | some c =>
    rw [h.seen_of_named? hextension hfound]
    by_cases hsee : may .see c.acl s.caller = true
    · rw [if_pos hsee]
      dsimp only
      refine h.update_of_removal hextension hfound ?_ ?_
      · exact if_pos hsee
      · exact told_send _ _ s
    · rw [if_neg hsee]
      exact h.update_of_told hfound _ (by simp [hsee]) (Told.refl s)

private theorem added_step (h : Represents p may extension d s) (caller player name : String) :
    ∃ e, d.Steps may caller (.add player name) e ∧ Represents p may extension e (added extension player name s).2 := by
  refine ⟨_, rfl, ?_⟩
  rw [added]
  cases hfound : d.named? name with
  | none =>
    obtain ⟨e, he⟩ := h.channel_of_none hextension hfound
    rw [he, Directory.update_of_none hfound, apply_ite Prod.snd, ite_self]
    exact h
  | some c =>
    rw [h.channel_of_named? hextension hfound]
    by_cases hplayer : NameList.isStorable player = true
    · rw [if_pos hplayer]
      dsimp only
      refine h.update_of_addition hextension hfound hplayer ?_ ?_
      · simp [hplayer]
      · exact told_send _ _ s
    · rw [if_neg hplayer]
      exact h.update_of_told hfound _ (by simp [hplayer]) (Told.refl s)

private theorem removed_step (h : Represents p may extension d s) (caller player name : String) :
    ∃ e, d.Steps may caller (.remove player name) e ∧ Represents p may extension e (removed extension player name s).2 := by
  refine ⟨_, rfl, ?_⟩
  rw [removed]
  cases hfound : d.named? name with
  | none =>
    obtain ⟨e, he⟩ := h.channel_of_none hextension hfound
    rw [he, Directory.update_of_none hfound, apply_ite Prod.snd, ite_self]
    exact h
  | some c =>
    rw [h.channel_of_named? hextension hfound]
    by_cases hplayer : NameList.isStorable player = true
    · rw [if_pos hplayer]
      dsimp only
      refine h.update_of_removal hextension hfound ?_ ?_
      · exact if_pos hplayer
      · exact told_send _ _ s
    · rw [if_neg hplayer]
      exact h.update_of_told hfound _ (by simp [hplayer]) (Told.refl s)

private theorem admitted_step (h : Represents p may extension d s) (caller : String) {guest : String}
    (hguest : NameList.isStorable guest = true) :
    ∃ e, d.Steps may caller (.welcome guest) e ∧ Represents p may extension e (admitted extension guest s).2 := by
  refine ⟨_, rfl, ?_⟩
  rw [admitted]
  cases hfound : d.named? guestChannel with
  | none =>
    obtain ⟨e, he⟩ := h.channel_of_none hextension hfound
    rw [he, Directory.update_of_none hfound]
    exact h
  | some c =>
    rw [h.channel_of_named? hextension hfound]
    dsimp only
    refine h.update_of_addition hextension hfound hguest ?_ ?_
    · rfl
    · exact Told.refl s

/-- A command leads from the representation of a table to the representation of the next. -/
theorem effect_step (h : Represents p may extension d s) (hcaller : NameList.isStorable s.caller = true)
    {command : Command} (hguest : ∀ guest, command = .welcome guest → NameList.isStorable guest = true) :
    ∃ e, d.Steps may s.caller command e ∧ Represents p may extension e (command.effect p extension s).2 := by
  cases command with
  | create name => exact h.created_step hextension s.caller name
  | delete name => exact h.deleted_step hextension s.caller name
  | restrict action name arguments => exact h.restricted_step hextension s.caller action name arguments
  | add player name => exact h.added_step hextension s.caller player name
  | remove player name => exact h.removed_step hextension s.caller player name
  | join name => exact h.joined_step hextension hcaller name
  | leave name => exact h.left_step hextension name
  | welcome guest => exact h.admitted_step hextension s.caller (hguest guest rfl)
  | observe => exact ⟨d, rfl, h⟩

end Represents

structure Turn where
  caller : String
  input : Text.Raw

/-- A turn on an extension in which the names that the world gives can be stored. -/
structure Turn.Proper (extension : String) (turn : Turn) : Prop where
  caller : NameList.isStorable turn.caller
  extension : ∀ call, Plugin.callOf? turn.input = some call → call.extension = extension
  guest : ∀ guest, Command.ofInput turn.input = .welcome guest → NameList.isStorable guest

def afterTurn (config : Config) (s : Store) (turn : Turn) : Store :=
  (plugin.serve config Store.exchange turn.input (s.withCaller turn.caller)).state

/-- What turns one after another make of a table. -/
def Directory.Runs (may : Action → AccessControl → String → Bool) : Directory → List Turn → Directory → Prop
  | d, [], e => e = d
  | d, turn :: turns, e =>
    ∃ next : Directory, d.Steps may turn.caller (Command.ofInput turn.input) next ∧ next.Runs may turns e

theorem Directory.Runs.unique {turns : List Turn} (h : d.Runs may turns e) {f : Directory} (k : d.Runs may turns f) :
    e = f := by
  induction turns generalizing d with
  | nil => exact Eq.trans h (Eq.symm k)
  | cons turn turns ih =>
    obtain ⟨next, hnext, hrest⟩ := h
    obtain ⟨other, hother, hlater⟩ := k
    rw [hnext.unique hother] at hrest
    exact ih hrest hlater

private theorem turn_step {config : Config} {turn : Turn} (hextension : extension ≠ "")
    (h : Represents config.privilege may extension d s) (hturn : turn.Proper extension) :
    ∃ e, d.Steps may turn.caller (Command.ofInput turn.input) e ∧
      Represents config.privilege may extension e (afterTurn config s turn) := by
  have hcalled := h.withCaller turn.caller
  by_cases hobserve : Command.ofInput turn.input = .observe
  · rw [hobserve]
    exact ⟨d, rfl, hcalled.of_told (serve_observe hobserve _)⟩
  · cases hcall : Plugin.callOf? turn.input with
    | none => exact absurd (by rw [Command.ofInput, hcall]) hobserve
    | some call =>
      have hcommand : Command.ofInput turn.input = Command.ofCall call := by rw [Command.ofInput, hcall]
      rw [hcommand] at hobserve
      rw [afterTurn, (serve_command hcall hobserve _).2, hturn.extension call hcall, hcommand]
      apply hcalled.effect_step hextension hturn.caller
      intro guest hguest
      exact hturn.guest guest (hcommand.trans hguest)

private theorem run_step {config : Config} {turns : List Turn} (hextension : extension ≠ "")
    (h : Represents config.privilege may extension d s) (hturns : ∀ turn ∈ turns, turn.Proper extension) :
    ∃ e, d.Runs may turns e ∧ Represents config.privilege may extension e (turns.foldl (afterTurn config) s) := by
  induction turns generalizing d s with
  | nil => exact ⟨d, rfl, h⟩
  | cons turn turns ih =>
    obtain ⟨next, hnext, hrepresents⟩ := turn_step hextension h (hturns turn List.mem_cons_self)
    obtain ⟨e, hrest, he⟩ := ih hrepresents fun later hlater => hturns later (List.mem_cons_of_mem turn hlater)
    exact ⟨e, ⟨next, hnext, hrest⟩, he⟩

/-- The plugin refines the table of channels: if the channels of an extension are written as channels are, they are
so after any number of calls by anyone, and the calls make one table of what they were, which is what they are then. -/
theorem channels_afterTurns (config : Config) (extension : String) (s : Store) (turns : List Turn)
    (hextension : extension ≠ "") (hcanonical : Canonical extension s)
    (hturns : ∀ turn ∈ turns, turn.Proper extension) :
    Canonical extension (turns.foldl (afterTurn config) s) ∧
      ∀ d, (channels extension s).Runs (fun action acl player => s.lets config.privilege action acl player) turns d ↔
        d = channels extension (turns.foldl (afterTurn config) s) := by
  obtain ⟨e, hruns, he⟩ := run_step hextension (hcanonical.represents config.privilege) hturns
  refine ⟨he.canonical, fun d => ?_⟩
  rw [he.channels_eq]
  constructor
  · intro h
    exact h.unique hruns
  · rintro rfl
    exact hruns

def lobby : Channel := ⟨"#lobby", ["Bob"], .unrestricted⟩

def joinLobby : Text.Raw := Plugin.textOfCall "chat" "\"join\",\"#lobby\""

theorem callOf?_joinLobby : Plugin.callOf? joinLobby = some ⟨"call", "chat", "ext", ["join", "#lobby"]⟩ := by
  simp only [joinLobby, Plugin.textOfCall, Text.Raw.ofString, String.toList_append, String.reduceToList]
  decide +kernel

private theorem ofInput_joinLobby : Command.ofInput joinLobby = .join "#lobby" := by
  have hcommand : Command.ofCall ⟨"call", "chat", "ext", ["join", "#lobby"]⟩ = .join "#lobby" := by decide
  rw [Command.ofInput, callOf?_joinLobby]
  exact hcommand

private theorem attributes_lobby : (Store.empty.withAttr "ext" lobby.toAttr).attributes "ext" = [lobby.toAttr] :=
  Store.attributes_withAttr_self Store.empty "ext" lobby.toAttr

private theorem canonical_lobby : Canonical "ext" (Store.empty.withAttr "ext" lobby.toAttr) := by
  refine ⟨rfl, ?_⟩
  intro a ha _
  rw [attributes_lobby] at ha
  exact ⟨lobby, by decide, (List.mem_singleton.mp ha).symm⟩

private theorem channels_lobby : channels "ext" (Store.empty.withAttr "ext" lobby.toAttr) = [lobby] := by
  have hrepresents : Represents Config.standard.privilege
      (fun action acl player => (Store.empty.withAttr "ext" lobby.toAttr).lets Config.standard.privilege action acl
        player) "ext" [lobby] (Store.empty.withAttr "ext" lobby.toAttr) := by
    refine ⟨rfl, fun _ _ _ => rfl, ?_, ?_⟩
    · rw [attributes_lobby]
      exact List.filter_cons_of_pos rfl
    · intro c hc
      rw [List.mem_singleton.mp hc]
      decide
  exact hrepresents.channels_eq

private theorem proper_joinLobby {caller : String} (hcaller : NameList.isStorable caller = true) :
    (Turn.mk caller joinLobby).Proper "ext" := by
  refine ⟨hcaller, ?_, ?_⟩
  · intro call h
    dsimp only at h
    rw [callOf?_joinLobby] at h
    rw [← Option.some.inj h]
  · intro guest h
    dsimp only at h
    rw [ofInput_joinLobby] at h
    cases h

/-- Alice and then Carol join the channel. -/
theorem channels_afterTurns_lobby :
    Canonical "ext" (Store.empty.withAttr "ext" lobby.toAttr) ∧
      (∀ turn ∈ [Turn.mk "Alice" joinLobby, Turn.mk "Carol" joinLobby], turn.Proper "ext") ∧
      channels "ext" ([Turn.mk "Alice" joinLobby, Turn.mk "Carol" joinLobby].foldl (afterTurn Config.standard)
          (Store.empty.withAttr "ext" lobby.toAttr)) =
        [{ lobby with members := ["Bob", "Alice", "Carol"] }] := by
  have hturns : ∀ turn ∈ [Turn.mk "Alice" joinLobby, Turn.mk "Carol" joinLobby], turn.Proper "ext" := by
    intro turn hturn
    simp only [List.mem_cons, List.not_mem_nil, or_false] at hturn
    rcases hturn with rfl | rfl
    · exact proper_joinLobby (by decide)
    · exact proper_joinLobby (by decide)
  have hrun := (channels_afterTurns Config.standard "ext" _ _ (by decide) canonical_lobby hturns).2
  refine ⟨canonical_lobby, hturns, ((hrun _).mp ?_).symm⟩
  rw [channels_lobby]
  refine ⟨[{ lobby with members := ["Bob", "Alice"] }], ?_, [{ lobby with members := ["Bob", "Alice", "Carol"] }], ?_, rfl⟩
  · simp [ofInput_joinLobby, Directory.Steps, Directory.update, Directory.named?, Directory.put, lobby]
  · simp [ofInput_joinLobby, Directory.Steps, Directory.update, Directory.named?, Directory.put, lobby]

end WorldPlugins.Chat
