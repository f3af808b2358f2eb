import WorldPlugins.Proofs.Chat.Outcomes
import WorldPlugins.Proofs.Plugin.Serving

/-! # Calls as commands

What a call to the chat plugin may do to channels, told from its method and arguments alone.  Every call is one of
eight commands that change channels, or it only looks and tells: then the world stays as it is, but for messages.
-/

namespace WorldPlugins.Chat

open Session (outcome)

/-- What a call may do to channels. -/
inductive Command
  | create (name : String)
  | delete (name : String)
  | restrict (action : Action) (name : String) (arguments : List String)
  | add (player name : String)
  | remove (player name : String)
  | join (name : String)
  | leave (name : String)
  /-- A guest arrives. -/
  | welcome (guest : String)
  | observe
  deriving DecidableEq, Repr

namespace Command

def ofCall (call : Call) : Command :=
  match call.method, call.arguments with
  | "chat", ["join", name] => .join name
  | "chat", ["leave", name] => .leave name
  | "chatadmin", ["create", name] => .create name
  | "chatadmin", ["delete", name] => .delete name
  | "chatadmin", "set_visibility" :: name :: argument :: arguments => .restrict .see name (argument :: arguments)
  | "chatadmin", "set_joinability" :: name :: argument :: arguments => .restrict .join name (argument :: arguments)
  | "chatadmin", ["add_member", player, name] => .add player name
  | "chatadmin", ["remove_member", player, name] => .remove player name
  | "chatguestautojoin", [event] =>
    match guest? event with
    | some guest => .welcome guest
    | none => .observe
  | _, _ => .observe

def ofInput (input : Text.Raw) : Command :=
  match Plugin.callOf? input with
  | some call => ofCall call
  | none => .observe

/-- What a command does in a world. -/
def effect (p : Privilege) (extension : String) (s : Store) : Command → Except PluginError Json × Store
  | .create name => created extension name s
  | .delete name => deleted extension name s
  | .restrict action name arguments => restricted extension action name arguments s
  | .add player name => added extension player name s
  | .remove player name => removed extension player name s
  | .join name => joined p extension name s
  | .leave name => left p extension name s
  | .welcome guest => admitted extension guest s
  | .observe => (.ok (.string ""), s)

end Command

variable {config : Config} {call : Call} {handler : Handler Json} {s t u : Store}

private theorem outcome_welcome_guest {event guest : String} (harguments : call.arguments = [event])
    (hguest : guest? event = some guest) (s : Store) :
    outcome (welcome ⟨call, config⟩) s = admitted call.extension guest s := by
  rw [outcome_welcome]
  simp only [harguments]
  unfold guest? at hguest
  cases hpayload : Json.Decoder.members.ofString event with
  | error e => simp [hpayload] at hguest
  | ok payload =>
    simp only [hpayload, Option.filter_eq_some_iff] at hguest
    obtain ⟨hname, hplayer⟩ := hguest
    simp only [hname, hplayer, if_true]
    rfl

theorem handler?_talk {subcommand : String} {rest : List String} {command : TalkCommand}
    (hmethod : call.method = "chat") (harguments : call.arguments = subcommand :: rest)
    (hname : TalkCommand.ofName? subcommand = some command) :
    plugin.handler? config call = some (command.run ⟨call, config⟩) := by
  have hlookup : plugin.lookup "chat" = some talkFamily := rfl
  simp [Plugin.handler?, Call.subcommand?, Call.argument?, harguments, hmethod, hlookup, talkFamily, hname]

theorem handler?_admin {subcommand : String} {rest : List String} {command : AdminCommand}
    (hmethod : call.method = "chatadmin") (harguments : call.arguments = subcommand :: rest)
    (hname : AdminCommand.ofName? subcommand = some command) :
    plugin.handler? config call = some (command.run ⟨call, config⟩) := by
  have hlookup : plugin.lookup "chatadmin" = some adminFamily := rfl
  simp [Plugin.handler?, Call.subcommand?, Call.argument?, harguments, hmethod, hlookup, adminFamily, hname]

private theorem handler?_guest {event : String} {rest : List String} (hmethod : call.method = "chatguestautojoin")
    (harguments : call.arguments = event :: rest) :
    plugin.handler? config call = some (welcome ⟨call, config⟩) := by
  have hlookup : plugin.lookup "chatguestautojoin" = some guestFamily := rfl
  simp [Plugin.handler?, Call.subcommand?, Call.argument?, harguments, hmethod, hlookup, guestFamily]

theorem handler?_cases (h : plugin.handler? config call = some handler) :
    (call.method = "chat" ∧ ∃ subcommand command, call.subcommand? = some subcommand ∧
        TalkCommand.ofName? subcommand = some command ∧ handler = command.run ⟨call, config⟩) ∨
      (call.method = "chatadmin" ∧ ∃ subcommand command, call.subcommand? = some subcommand ∧
        AdminCommand.ofName? subcommand = some command ∧ handler = command.run ⟨call, config⟩) ∨
      call.method = "chatguestautojoin" ∧ handler = welcome ⟨call, config⟩ := by
  unfold Plugin.handler? at h
  split at h
  · obtain ⟨family, hfamily, hfound⟩ := Option.bind_eq_some_iff.mp h
    by_cases hchat : call.method = "chat"
    · rw [hchat] at hfamily
      cases hfamily
      obtain ⟨command, hcommand, rfl⟩ := Option.map_eq_some_iff.mp hfound
      obtain ⟨subcommand, hsub, hname⟩ := Option.bind_eq_some_iff.mp hcommand
      exact .inl ⟨hchat, subcommand, command, hsub, hname, rfl⟩
    by_cases hadmin : call.method = "chatadmin"
    · rw [hadmin] at hfamily
      cases hfamily
      obtain ⟨command, hcommand, rfl⟩ := Option.map_eq_some_iff.mp hfound
      obtain ⟨subcommand, hsub, hname⟩ := Option.bind_eq_some_iff.mp hcommand
      exact .inr (.inl ⟨hadmin, subcommand, command, hsub, hname, rfl⟩)
    by_cases hguest : call.method = "chatguestautojoin"
    · rw [hguest] at hfamily
      cases hfamily
      cases hfound
      exact .inr (.inr ⟨hguest, rfl⟩)
    · simp [plugin, List.lookup_cons, beq_eq_false_iff_ne.mpr hchat, beq_eq_false_iff_ne.mpr hadmin,
        beq_eq_false_iff_ne.mpr hguest] at hfamily
  · cases h

/-- A command that changes channels has a handler, and its outcome is the effect of the command. -/
theorem handler?_of_command (h : Command.ofCall call ≠ .observe) :
    ∃ handler, plugin.handler? config call = some handler ∧
      ∀ s, outcome handler s = (Command.ofCall call).effect config.privilege call.extension s := by
  unfold Command.ofCall at h ⊢
  split at h
  · next name hmethod harguments =>
    refine ⟨_, handler?_talk hmethod harguments rfl, ?_⟩
    intro s
    simp only [TalkCommand.run, harguments]
    exact outcome_join ⟨call, config⟩ name s
  · next name hmethod harguments =>
    refine ⟨_, handler?_talk hmethod harguments rfl, ?_⟩
    intro s
    simp only [TalkCommand.run, harguments]
    exact outcome_leave ⟨call, config⟩ name s
  · next name hmethod harguments =>
    refine ⟨_, handler?_admin hmethod harguments rfl, ?_⟩
    intro s
    simp only [AdminCommand.run, harguments]
    exact outcome_create ⟨call, config⟩ name s
  · next name hmethod harguments =>
    refine ⟨_, handler?_admin hmethod harguments rfl, ?_⟩
    intro s
    simp only [AdminCommand.run, harguments]
    exact outcome_delete ⟨call, config⟩ name s
  · next name argument arguments hmethod harguments =>
    refine ⟨_, handler?_admin hmethod harguments rfl, ?_⟩
    intro s
    simp only [AdminCommand.run, harguments]
    exact outcome_setAccess ⟨call, config⟩ name s .see (argument :: arguments)
  · next name argument arguments hmethod harguments =>
    refine ⟨_, handler?_admin hmethod harguments rfl, ?_⟩
    intro s
    simp only [AdminCommand.run, harguments]
    exact outcome_setAccess ⟨call, config⟩ name s .join (argument :: arguments)
  · next player name hmethod harguments =>
    refine ⟨_, handler?_admin hmethod harguments rfl, ?_⟩
    intro s
    simp only [AdminCommand.run, harguments]
    exact outcome_addMember ⟨call, config⟩ name player s
  · next player name hmethod harguments =>
    refine ⟨_, handler?_admin hmethod harguments rfl, ?_⟩
    intro s
    simp only [AdminCommand.run, harguments]
    exact outcome_removeMember ⟨call, config⟩ name player s
  · next event hmethod harguments =>
    refine ⟨_, handler?_guest hmethod harguments, ?_⟩
    intro s
    cases hguest : guest? event with
    | none => simp [hguest] at h
    | some guest =>
      dsimp only
      exact outcome_welcome_guest harguments hguest s
  · exact absurd rfl h

def Told (s t : Store) : Prop := ∃ messages, t = { s with sent := s.sent ++ messages }

theorem Told.refl (s : Store) : Told s s := ⟨[], by simp⟩

theorem Told.trans (h : Told s t) (k : Told t u) : Told s u := by
  obtain ⟨first, rfl⟩ := h
  obtain ⟨second, rfl⟩ := k
  exact ⟨first ++ second, by simp⟩

theorem told_send (method : StoreMethod) (message : Sent) (s : Store) : Told s (s.send method message).2 := by
  unfold Store.send
  cases s.fault? method with
  | some e => exact Told.refl s
  | none => exact ⟨[message], rfl⟩

theorem told_told (text : String) (players : List String) (s : Store) : Told s (told text players s) := by
  induction players generalizing s with
  | nil => exact Told.refl s
  | cons player players ih => exact (told_send _ _ s).trans (ih _)

theorem told_listed (p : Privilege) (extension header : String) (wanted : String → Channel → Bool) (s : Store) :
    Told s (listed p extension header wanted s).2 := by
  unfold listed
  cases s.fetchCaller with
  | error e => exact Told.refl s
  | ok caller =>
    dsimp only
    cases s.visible p caller extension with
    | error e => exact Told.refl s
    | ok channels =>
      dsimp only
      split
      · exact told_send _ _ s
      · exact told_send _ _ s

private theorem told_talk {command : TalkCommand}
    (hjoin : ∀ subcommand name, command = .join → call.arguments ≠ [subcommand, name])
    (hleave : ∀ subcommand name, command = .leave → call.arguments ≠ [subcommand, name]) (s : Store) :
    Told s (outcome (command.run ⟨call, config⟩) s).2 := by
  unfold TalkCommand.run
  split
  · next name text _ =>
    rw [outcome_say]
    split
    · exact Told.refl s
    · split
      · exact told_told _ _ s
      · exact Told.refl s
  · next harguments => exact absurd harguments (hjoin _ _ rfl)
  · next harguments => exact absurd harguments (hleave _ _ rfl)
  · rw [outcome_list]
    exact told_listed _ _ _ _ s
  · rw [outcome_mine]
    exact told_listed _ _ _ _ s
  · next name _ =>
    rw [outcome_members]
    split
    · exact Told.refl s
    · split
      · exact told_send _ _ s
      · exact told_send _ _ s
  · exact Told.refl s

private theorem told_admin {command : AdminCommand}
    (hone : ∀ subcommand name, command = .create ∨ command = .delete → call.arguments ≠ [subcommand, name])
    (htwo : ∀ subcommand player name, command = .addMember ∨ command = .removeMember →
      call.arguments ≠ [subcommand, player, name])
    (hmany : ∀ action subcommand name argument rest, command = .setAccess action →
      call.arguments ≠ subcommand :: name :: argument :: rest) (s : Store) :
    Told s (outcome (command.run ⟨call, config⟩) s).2 := by
  unfold AdminCommand.run
  split
  · next harguments => exact absurd harguments (hone _ _ (.inl rfl))
  · next harguments => exact absurd harguments (hone _ _ (.inr rfl))
  · next name _ =>
    rw [outcome_inspect]
    split
    · exact Told.refl s
    · exact told_send _ _ s
  · next harguments => exact absurd harguments (hmany _ _ _ _ _ rfl)
  · next harguments => exact absurd harguments (htwo _ _ _ (.inl rfl))
  · next harguments => exact absurd harguments (htwo _ _ _ (.inr rfl))
  · exact Told.refl s

private theorem told_welcome (hguest : ∀ event, call.arguments = [event] → guest? event = none) (s : Store) :
    Told s (outcome (welcome ⟨call, config⟩) s).2 := by
  rw [outcome_welcome]
  dsimp only
  split
  · next event harguments =>
    have hnone := hguest event harguments
    unfold guest? at hnone
    split
    · exact Told.refl s
    · next payload hpayload =>
      rw [hpayload] at hnone
      split
      · exact Told.refl s
      · next name hname =>
        split
        · next hplayer =>
          dsimp only at hnone
          rw [hname, Option.filter_some, if_pos hplayer] at hnone
          cases hnone
        · exact Told.refl s
  · exact Told.refl s

theorem eq_of_talkName {subcommand : String} {command : TalkCommand}
    (h : TalkCommand.ofName? subcommand = some command) :
    (command = .join → subcommand = "join") ∧ (command = .leave → subcommand = "leave") := by
  unfold TalkCommand.ofName? at h
  split at h <;> cases h <;> simp

theorem eq_of_adminName {subcommand : String} {command : AdminCommand}
    (h : AdminCommand.ofName? subcommand = some command) :
    (command = .create → subcommand = "create") ∧ (command = .delete → subcommand = "delete") ∧
      (command = .setAccess .see → subcommand = "set_visibility") ∧
      (command = .setAccess .join → subcommand = "set_joinability") ∧
      (command = .addMember → subcommand = "add_member") ∧
      (command = .removeMember → subcommand = "remove_member") := by
  unfold AdminCommand.ofName? at h
  split at h <;> cases h <;> simp

private theorem told_of_talk {subcommand : String} {command : TalkCommand} (h : Command.ofCall call = .observe)
    (hmethod : call.method = "chat") (hsub : call.subcommand? = some subcommand)
    (hname : TalkCommand.ofName? subcommand = some command) (s : Store) :
    Told s (outcome (command.run ⟨call, config⟩) s).2 := by
  obtain ⟨hjoin, hleave⟩ := eq_of_talkName hname
  refine told_talk ?_ ?_ s
  · intro first name hkind harguments
    cases Call.eq_of_subcommand? hsub harguments
    cases hjoin hkind
    simp [Command.ofCall, hmethod, harguments] at h
  · intro first name hkind harguments
    cases Call.eq_of_subcommand? hsub harguments
    cases hleave hkind
    simp [Command.ofCall, hmethod, harguments] at h

private theorem told_of_admin {subcommand : String} {command : AdminCommand} (h : Command.ofCall call = .observe)
    (hmethod : call.method = "chatadmin") (hsub : call.subcommand? = some subcommand)
    (hname : AdminCommand.ofName? subcommand = some command) (s : Store) :
    Told s (outcome (command.run ⟨call, config⟩) s).2 := by
  obtain ⟨hcreate, hdelete, hsee, hjoin, hadd, hremove⟩ := eq_of_adminName hname
  refine told_admin ?_ ?_ ?_ s
  · rintro first name (hkind | hkind) harguments
    · cases Call.eq_of_subcommand? hsub harguments
      cases hcreate hkind
      simp [Command.ofCall, hmethod, harguments] at h
    · cases Call.eq_of_subcommand? hsub harguments
      cases hdelete hkind
      simp [Command.ofCall, hmethod, harguments] at h
  · rintro first player name (hkind | hkind) harguments
    · cases Call.eq_of_subcommand? hsub harguments
      cases hadd hkind
      simp [Command.ofCall, hmethod, harguments] at h
    · cases Call.eq_of_subcommand? hsub harguments
      cases hremove hkind
      simp [Command.ofCall, hmethod, harguments] at h
  · intro action first name argument rest hkind harguments
    cases Call.eq_of_subcommand? hsub harguments
    cases action with
    | see =>
      cases hsee hkind
      simp [Command.ofCall, hmethod, harguments] at h
    | join =>
      cases hjoin hkind
      simp [Command.ofCall, hmethod, harguments] at h

private theorem told_of_guest (h : Command.ofCall call = .observe) (hmethod : call.method = "chatguestautojoin")
    (s : Store) : Told s (outcome (welcome ⟨call, config⟩) s).2 := by
  refine told_welcome ?_ s
  intro event harguments
  cases hguest : guest? event with
  | none => rfl
  | some guest => simp [Command.ofCall, hmethod, harguments, hguest] at h

/-- A handler that serves no command that changes channels changes nothing. -/
theorem told_of_observe (h : Command.ofCall call = .observe) (hhandler : plugin.handler? config call = some handler)
    (s : Store) : Told s (outcome handler s).2 := by
  rcases handler?_cases hhandler with ⟨hmethod, subcommand, command, hsub, hname, rfl⟩ |
    ⟨hmethod, subcommand, command, hsub, hname, rfl⟩ | ⟨hmethod, rfl⟩
  · exact told_of_talk h hmethod hsub hname s
  · exact told_of_admin h hmethod hsub hname s
  · exact told_of_guest h hmethod s

/-- An input that holds a command that changes channels has the effect of the command. -/
theorem serve_command {input : Text.Raw} (hcall : Plugin.callOf? input = some call)
    (h : Command.ofCall call ≠ .observe) (s : Store) :
    (plugin.serve config Store.exchange input s).value.isSuccess =
        ((Command.ofCall call).effect config.privilege call.extension s).1.isOk ∧
      (plugin.serve config Store.exchange input s).state =
        ((Command.ofCall call).effect config.privilege call.extension s).2 := by
  obtain ⟨handler, hhandler, houtcome⟩ := @handler?_of_command config call h
  obtain ⟨id, hserve⟩ := Plugin.serve_handled hcall hhandler
  rw [(hserve s).1, (hserve s).2, houtcome s]
  exact ⟨Plugin.isSuccess_respond id _, rfl⟩

/-- Any other input leaves the world as it is, but for messages. -/
theorem serve_observe {input : Text.Raw} (h : Command.ofInput input = .observe) (s : Store) :
    Told s (plugin.serve config Store.exchange input s).state := by
  unfold Command.ofInput at h
  cases hhandled : (Plugin.callOf? input).bind (plugin.handler? config) with
  | none =>
    obtain ⟨response, -, hserve⟩ := Plugin.serve_unhandled hhandled
    rw [(hserve s).2]
    exact Told.refl s
  | some handler =>
    obtain ⟨call, hcall, hhandler⟩ := Option.bind_eq_some_iff.mp hhandled
    obtain ⟨id, hserve⟩ := Plugin.serve_handled hcall hhandler
    rw [hcall] at h
    rw [(hserve s).2]
    exact told_of_observe h hhandler s

end WorldPlugins.Chat
