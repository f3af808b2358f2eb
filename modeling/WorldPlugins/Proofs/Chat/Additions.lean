import WorldPlugins.Proofs.Chat.Directory
import WorldPlugins.Proofs.Chat.Membership

/-! # Names that are added to channels

The members of a channel are stored as one text, so a name with a comma in it is read back as several members, and
an empty name on its own as none.  An administrator may not add such names, but nothing checks the names of callers
who join and of guests who arrive: if they come through, they are stored all the same.
-/

namespace WorldPlugins.Chat

variable {p : Privilege} {extension name player : String} {s : Store} {a : Attr} {c : Channel}

/-- Whether a command to add a player comes through, given the channel that it looked up.  The members are written,
or the caller is told that the player is one of them; a guest who is one of them is not told. -/
def Command.comesThrough (p : Privilege) (s : Store) (c : Channel) : Command → Prop
  | .join _ =>
    s.fault? .getCallerName = none ∧ s.lets p .see c.acl s.caller ∧ s.lets p .join c.acl s.caller ∧
      s.fault? (if s.caller ∈ c.members then .sendMessageToCaller else .setAttr) = none
  | .add player _ =>
    NameList.isStorable player ∧ s.fault? (if player ∈ c.members then .sendMessageToCaller else .setAttr) = none
  | .welcome guest => guest ∈ c.members ∨ s.fault? .setAttr = none
  | _ => False

private theorem isOk_written (hc : s.channel extension name = .ok c) (names : List String) :
    (answered (s.writeField extension c.name (Channel.namesField Channel.membersKey names))).1.isOk = true ↔
      s.fault? .setAttr = none := by
  obtain ⟨a, b, -, -, hwrite⟩ := writeField_of_channel hc names
  rw [hwrite]
  cases s.fault? .setAttr with
  | some e => exact iff_of_false Bool.false_ne_true (Option.some_ne_none e)
  | none => exact iff_of_true rfl rfl

private theorem isOk_toldOrWritten (hc : s.channel extension name = .ok c) (text : String) :
    (if c.isMember player then answered (s.tell text none)
      else answered (s.writeField extension c.name (c.addMember player).membersField)).1.isOk = true ↔
      s.fault? (if player ∈ c.members then .sendMessageToCaller else .setAttr) = none := by
  by_cases hmember : player ∈ c.members
  · rw [if_pos ((c.isMember_iff player).mpr hmember), if_pos hmember, Store.tell, Store.send]
    cases s.fault? .sendMessageToCaller with
    | some e => exact iff_of_false Bool.false_ne_true (Option.some_ne_none e)
    | none => exact iff_of_true rfl rfl
  · rw [if_neg ((c.isMember_iff player).not.mpr hmember), if_neg hmember]
    exact isOk_written hc _

/-- There is only one channel to look up. -/
private theorem exists_found_iff (property : Channel → Prop) :
    (∃ d, (.ok c : Except PluginError Channel) = .ok d ∧ property d) ↔ property c := by
  constructor
  · rintro ⟨d, hd, h⟩
    cases hd
    exact h
  · intro h
    exact ⟨c, rfl, h⟩

private theorem isOk_joined :
    (joined p extension name s).1.isOk = true ↔
      ∃ c, s.channel extension name = .ok c ∧ (Command.join name).comesThrough p s c := by
  unfold joined
  cases hseen : s.seen p extension name with
  | error e =>
    constructor
    · intro h
      cases h
    · rintro ⟨c, hc, hcaller, hsee, -⟩
      have hfetched := (s.fetchCaller_eq_ok_iff s.caller).mpr ⟨hcaller, rfl⟩
      have hfound := (s.seen_eq_ok_iff p extension name c s.caller).mpr ⟨hc, hfetched, hsee⟩
      rw [hseen] at hfound
      cases hfound
  | ok found =>
    obtain ⟨c, caller⟩ := found
    obtain ⟨hc, hfetched, hsee⟩ := (s.seen_eq_ok_iff p extension name c caller).mp hseen
    obtain ⟨hcaller, rfl⟩ := (s.fetchCaller_eq_ok_iff caller).mp hfetched
    rw [hc, exists_found_iff]
    dsimp only
    by_cases hjoin : s.lets p .join c.acl s.caller = true
    · rw [if_pos hjoin, isOk_toldOrWritten hc]
      exact ⟨fun h => ⟨hcaller, hsee, hjoin, h⟩, fun h => h.2.2.2⟩
    · rw [if_neg hjoin]
      exact iff_of_false Bool.false_ne_true fun h => hjoin h.2.2.1

private theorem isOk_added :
    (added extension player name s).1.isOk = true ↔
      ∃ c, s.channel extension name = .ok c ∧ (Command.add player name).comesThrough p s c := by
  unfold added
  by_cases hplayer : NameList.isStorable player = true
  · rw [if_pos hplayer]
    cases hc : s.channel extension name with
    | error e =>
      constructor
      · intro h
        cases h
      · rintro ⟨c, hfound, -⟩
        cases hfound
    | ok c =>
      rw [exists_found_iff]
      dsimp only
      rw [isOk_toldOrWritten hc]
      exact ⟨fun h => ⟨hplayer, h⟩, fun h => h.2⟩
  · rw [if_neg hplayer]
    constructor
    · intro h
      cases h
    · rintro ⟨c, -, hstorable, -⟩
      exact absurd hstorable hplayer

private theorem isOk_admitted :
    (admitted extension player s).1.isOk = true ↔
      ∃ c, s.channel extension guestChannel = .ok c ∧ (Command.welcome player).comesThrough p s c := by
  unfold admitted
  cases hc : s.channel extension guestChannel with
  | error e =>
    constructor
    · intro h
      cases h
    · rintro ⟨c, hfound, -⟩
      cases hfound
  | ok c =>
    rw [exists_found_iff]
    dsimp only
    by_cases hmember : player ∈ c.members
    · rw [if_pos ((c.isMember_iff player).mpr hmember)]
      exact ⟨fun _ => .inl hmember, fun _ => rfl⟩
    · rw [if_neg ((c.isMember_iff player).not.mpr hmember)]
      have hwritten := isOk_written hc (c.members ++ [player])
      exact ⟨fun h => .inr (hwritten.mp h), fun h => hwritten.mpr (h.resolve_left hmember)⟩

/-- A command to add a player succeeds if and only if the channel can be looked up and the command comes through. -/
theorem isOk_addition_iff {command : Command} (h : command.addition? s.caller = some (name, player))
    (hattr : s.attr? extension name = some a) (hread : Channel.ofAttr a = .ok c) :
    (command.effect p extension s).1.isOk = true ↔
      s.channel extension name = .ok c ∧ command.comesThrough p s c := by
  have hfound : (command.effect p extension s).1.isOk = true ↔
      ∃ found, s.channel extension name = .ok found ∧ command.comesThrough p s found := by
    cases command with
    | join other =>
      cases h
      exact isOk_joined
    | add other channel =>
      cases h
      exact isOk_added
    | welcome guest =>
      cases h
      exact isOk_admitted
    | create other => cases h
    | delete other => cases h
    | restrict action other arguments => cases h
    | remove other channel => cases h
    | leave other => cases h
    | observe => cases h
  rw [hfound]
  constructor
  · rintro ⟨found, hchannel, hthrough⟩
    cases eq_of_channel hattr hread hchannel
    exact ⟨hchannel, hthrough⟩
  · intro hthrough
    exact ⟨c, hthrough⟩

/-- A stored channel with one more member is read back if and only if the name has no comma, and is not empty where
it is the only one. -/
theorem split_join_append_iff (h : Channel.ofAttr a = .ok c) (player : String) :
    NameList.split (NameList.join (c.members ++ [player])) = c.members ++ [player] ↔
      ',' ∉ player.toList ∧ (c.members = [] → player ≠ "") := by
  obtain ⟨text, htext⟩ := Channel.members_eq_split h
  rw [NameList.split_join_eq_self_iff]
  constructor
  · rintro ⟨hcomma, hone⟩
    refine ⟨hcomma player (by simp), fun hnone hempty => hone ?_⟩
    rw [hnone, hempty]
    rfl
  · rintro ⟨hcomma, hempty⟩
    constructor
    · intro member hmember
      rcases List.mem_append.mp hmember with hold | hnew
      · rw [htext] at hold
        exact NameList.notMem_of_mem_split hold
      · rw [List.mem_singleton.mp hnew]
        exact hcomma
    · intro hone
      rcases List.append_eq_singleton_iff.mp hone with ⟨hnone, hplayer⟩ | ⟨-, hplayer⟩
      · exact hempty hnone (List.singleton_inj.mp hplayer)
      · cases hplayer

def storedMembers? (extension name : String) (s : Store) : Option (List String) :=
  (s.attr? extension name).bind fun a => (Channel.ofAttr a).toOption.map Channel.members

theorem storedMembers?_of_attr? (hattr : s.attr? extension name = some a) (hread : Channel.ofAttr a = .ok c) :
    storedMembers? extension name s = some c.members := by
  rw [storedMembers?, hattr, Option.bind_some, hread]
  rfl

private theorem kept_of_addition {r : Except PluginError Json × Store} (h : Addition extension name player s r)
    (hfailed : r.1.isOk = false) : r.2 = s := by
  cases h with
  | refused _ hsame => exact hsame
  | already hok hc hmember htold =>
    rw [hok] at hfailed
    cases hfailed
  | stored hok hc hmember hwritten =>
    rw [hok] at hfailed
    cases hfailed

/-- A success with a new player writes the members with the player at the end. -/
theorem rewritten_of_addition {r : Except PluginError Json × Store} (h : Addition extension name player s r)
    (hattr : s.attr? extension name = some a) (hread : Channel.ofAttr a = .ok c) (hok : r.1.isOk = true)
    (hnew : player ∉ c.members) : Rewritten extension name (c.members ++ [player]) s r.2 := by
  cases h with
  | refused hfailed hsame =>
    rw [hok] at hfailed
    cases hfailed
  | already _ hc hmember htold =>
    cases eq_of_channel hattr hread hc
    exact absurd hmember hnew
  | stored _ hc hmember hwritten =>
    cases eq_of_channel hattr hread hc
    exact hwritten

private theorem storedMembers?_of_rewritten {names : List String} {t : Store}
    (h : Rewritten extension name names s t) (hread : Channel.ofAttr a = .ok c)
    (hattr : s.attr? extension name = some a) :
    storedMembers? extension name t = some (NameList.split (NameList.join names)) := by
  obtain ⟨fields, hfields, -⟩ := (Channel.ofAttr_eq_ok_iff a c).mp hread
  obtain ⟨b, hb, hbread⟩ := read_of_rewritten h hattr hfields
  exact storedMembers?_of_attr? hb hbread

/-- What an attempt to add a player to a channel should come to: if it succeeds and writes, the player is the one new
member, and a name that cannot be stored is refused. -/
structure Faithful (extension name player : String) (c : Channel) (s : Store) (success : Bool) (t : Store) : Prop where
  grown : success = true → player ∉ c.members → storedMembers? extension name t = some (c.members ++ [player])
  refused : NameList.isStorable player = false → success = false ∧ t = s

private theorem faithful_iff {success : Bool} {t : Store} (hkept : success = false → t = s)
    (hgrown : success = true → player ∉ c.members →
      (storedMembers? extension name t = some (c.members ++ [player]) ↔
        ',' ∉ player.toList ∧ (c.members = [] → player ≠ ""))) :
    Faithful extension name player c s success t ↔ NameList.isStorable player = true ∨ success = false := by
  constructor
  · intro h
    cases hstorable : NameList.isStorable player with
    | true => exact .inl rfl
    | false => exact .inr (h.refused hstorable).1
  · rintro (hstorable | hfailed)
    · obtain ⟨hne, hcomma⟩ := (NameList.isStorable_iff player).mp hstorable
      refine ⟨fun hok hnew => (hgrown hok hnew).mpr ⟨hcomma, fun _ => hne⟩, ?_⟩
      intro hunstorable
      rw [hstorable] at hunstorable
      cases hunstorable
    · refine ⟨?_, fun _ => ⟨hfailed, hkept hfailed⟩⟩
      intro hok
      rw [hok] at hfailed
      cases hfailed

/-- Adding a player to a stored channel comes to what it should if and only if the name can be stored or the command
does not come through.  What is written is the text of the members and the player, whatever the name. -/
theorem faithful_addition_iff (config : Config) (name player : String) (s : Store) (a : Attr) (c : Channel)
    (input : Text.Raw) (call : Call) (hcall : Plugin.callOf? input = some call)
    (haddition : (Command.ofCall call).addition? s.caller = some (name, player))
    (hattr : s.attr? call.extension name = some a) (hread : Channel.ofAttr a = .ok c) :
    let played := plugin.serve config Store.exchange input s
    let through := s.channel call.extension name = .ok c ∧ (Command.ofCall call).comesThrough config.privilege s c
    (Faithful call.extension name player c s played.value.isSuccess played.state ↔
        NameList.isStorable player = true ∨ ¬ through) ∧
      (played.value.isSuccess = true ↔ through) ∧ (played.value.isSuccess = false → played.state = s) ∧
      (played.value.isSuccess = true → player ∉ c.members →
        storedMembers? call.extension name played.state =
            some (NameList.split (NameList.join (c.members ++ [player]))) ∧
          (storedMembers? call.extension name played.state = some (c.members ++ [player]) ↔
            ',' ∉ player.toList ∧ (c.members = [] → player ≠ ""))) := by
  intro played through
  have hcommand : Command.ofCall call ≠ .observe := by
    intro hobserve
    rw [hobserve] at haddition
    cases haddition
  obtain ⟨hvalue, hstate⟩ := @serve_command config call input hcall hcommand s
  have hsuccess : played.value.isSuccess = true ↔ through := by
    rw [hvalue]
    exact isOk_addition_iff haddition hattr hread
  have hoccurred := @addition_of_command config.privilege call.extension name player s _ haddition
  have hkept : played.value.isSuccess = false → played.state = s := by
    rw [hvalue, hstate]
    exact kept_of_addition hoccurred
  have hwritten : played.value.isSuccess = true → player ∉ c.members →
      storedMembers? call.extension name played.state =
        some (NameList.split (NameList.join (c.members ++ [player]))) := by
    rw [hvalue, hstate]
    intro hok hnew
    exact storedMembers?_of_rewritten (rewritten_of_addition hoccurred hattr hread hok hnew) hread hattr
  have hgrown : played.value.isSuccess = true → player ∉ c.members →
      (storedMembers? call.extension name played.state = some (c.members ++ [player]) ↔
        ',' ∉ player.toList ∧ (c.members = [] → player ≠ "")) := by
    intro hok hnew
    rw [hwritten hok hnew, Option.some_inj]
    exact split_join_append_iff hread player
  have hfaithful := faithful_iff hkept hgrown
  rw [← Bool.not_eq_true, hsuccess] at hfaithful
  exact ⟨hfaithful, hsuccess, hkept, fun hok hnew => ⟨hwritten hok hnew, hgrown hok hnew⟩⟩

def lobbyWorld : Store := (Store.empty.withCaller "Dave,Eve").withAttr "ext" lobby.toAttr

private theorem attr?_lobbyWorld : lobbyWorld.attr? "ext" "#lobby" = some lobby.toAttr :=
  Store.attr?_withAttr_self (Store.empty.withCaller "Dave,Eve") "ext" lobby.toAttr

private theorem ofAttr_lobby : Channel.ofAttr lobby.toAttr = .ok lobby := Channel.ofAttr_toAttr (by decide)

private theorem channel_lobbyWorld : lobbyWorld.channel "ext" "#lobby" = .ok lobby := by
  rw [Store.channel_eq_ok_iff, Store.channel?_eq_some_iff]
  refine ⟨rfl, lobby.toAttr, ?_, ofAttr_lobby⟩
  exact (Store.fetch_eq_ok_iff _ _ _ _).mpr ⟨by decide, by decide, rfl, attr?_lobbyWorld⟩

private theorem addition?_joinLobby :
    (Command.ofCall ⟨"call", "chat", "ext", ["join", "#lobby"]⟩).addition? lobbyWorld.caller =
      some ("#lobby", "Dave,Eve") := by
  decide

private theorem comesThrough_lobbyWorld :
    (Command.ofCall ⟨"call", "chat", "ext", ["join", "#lobby"]⟩).comesThrough Config.standard.privilege lobbyWorld
      lobby :=
  ⟨rfl, Store.lets_unrestricted _ _ _ _, Store.lets_unrestricted _ _ _ _, rfl⟩

/-- When this caller joins the lobby, it does not come to what it should. -/
theorem faithful_addition_iff_lobby :
    let played := plugin.serve Config.standard Store.exchange joinLobby lobbyWorld
    ¬ Faithful "ext" "#lobby" "Dave,Eve" lobby lobbyWorld played.value.isSuccess played.state := by
  intro played hfaithful
  have h := faithful_addition_iff Config.standard "#lobby" "Dave,Eve" lobbyWorld lobby.toAttr lobby joinLobby _
    callOf?_joinLobby addition?_joinLobby attr?_lobbyWorld ofAttr_lobby
  rcases h.1.mp hfaithful with hstorable | hnot
  · exact absurd hstorable (by decide)
  · exact hnot ⟨channel_lobbyWorld, comesThrough_lobbyWorld⟩

/-- One caller joins, and two new members are stored. -/
theorem joining_adds_two :
    let played := plugin.serve Config.standard Store.exchange joinLobby lobbyWorld
    played.value.isSuccess = true ∧ storedMembers? "ext" "#lobby" lobbyWorld = some ["Bob"] ∧
      storedMembers? "ext" "#lobby" played.state = some ["Bob", "Dave", "Eve"] := by
  have hcommand : Command.ofCall ⟨"call", "chat", "ext", ["join", "#lobby"]⟩ ≠ .observe := by decide
  obtain ⟨hvalue, hstate⟩ := @serve_command Config.standard _ _ callOf?_joinLobby hcommand lobbyWorld
  have hok := (isOk_addition_iff addition?_joinLobby attr?_lobbyWorld ofAttr_lobby).mpr
    ⟨channel_lobbyWorld, comesThrough_lobbyWorld⟩
  have hwritten := rewritten_of_addition (addition_of_command addition?_joinLobby) attr?_lobbyWorld ofAttr_lobby hok
    (by decide)
  have hmembers := storedMembers?_of_rewritten hwritten ofAttr_lobby attr?_lobbyWorld
  have hsplit : NameList.split (NameList.join (lobby.members ++ ["Dave,Eve"])) = ["Bob", "Dave", "Eve"] := by decide
  rw [hsplit] at hmembers
  dsimp only
  rw [hvalue, hstate]
  exact ⟨hok, storedMembers?_of_attr? attr?_lobbyWorld ofAttr_lobby, hmembers⟩

end WorldPlugins.Chat
