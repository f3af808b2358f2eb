import WorldPlugins.Calendar.Commands
import WorldPlugins.Chat.Guests
import WorldPlugins.Proofs.Json.Lossless

/-! # What the commands take

The arguments of each command are written down here as in a manual, without its handler, and so is what may be wrong
with them.
-/

namespace WorldPlugins

inductive ArgumentKind
  | word
  | player
  | channel
  /-- An event that tells which thing arrived. -/
  | arrival
  deriving DecidableEq, Repr

/-- What a command takes: its arguments in order, the subcommand counted, and whether more may follow. -/
structure Usage where
  kinds : List ArgumentKind
  openEnded : Bool
  deriving DecidableEq, Repr

/-- The text is an object with these members, and they name the thing that arrived. -/
def Arrival (text : String) (members : Json.Members) (name : String) : Prop :=
  Json.Decoder.any.ofString text = .ok (.object members) ∧
    Keyed.get? members "yoinkedThingName" = some (.string name)

theorem Arrival.unique {text : String} {members others : Json.Members} {name other : String}
    (h : Arrival text members name) (h' : Arrival text others other) : members = others ∧ name = other := by
  obtain ⟨hany, hname⟩ := h
  obtain ⟨hany', hname'⟩ := h'
  cases hany.symm.trans hany'
  cases hname.symm.trans hname'
  exact ⟨rfl, rfl⟩

def ArgumentKind.Fits : ArgumentKind → String → Prop
  | .word, _ => True
  | .player, name => name ≠ "" ∧ ',' ∉ name.toList
  | .channel, name => name.toList.head? = some '#'
  | .arrival, text => ∃ members name, Arrival text members name

def Usage.Takes (u : Usage) (n : Nat) : Prop := if u.openEnded then u.kinds.length ≤ n else n = u.kinds.length

/-- The arguments are as many as the command takes, and each will do. -/
structure Usage.Accepts (u : Usage) (arguments : List String) : Prop where
  count : u.Takes arguments.length
  fits : ∀ p ∈ u.kinds.zip arguments, p.1.Fits p.2

namespace Chat

def TalkCommand.usage : TalkCommand → Usage
  | .say => ⟨[.word, .channel, .word], false⟩
  | .join | .leave | .members => ⟨[.word, .channel], false⟩
  | .list | .mine => ⟨[.word], false⟩

def AdminCommand.usage : AdminCommand → Usage
  | .create | .delete | .inspect => ⟨[.word, .channel], false⟩
  | .setAccess _ => ⟨[.word, .channel, .word], true⟩
  | .addMember | .removeMember => ⟨[.word, .player, .channel], false⟩

def welcomeUsage : Usage := ⟨[.arrival], false⟩

/-- What the arguments of a call to the chat plugin should be, if the method and the subcommand are known. -/
def manual (call : Call) : Option Usage :=
  match call.method with
  | "chat" => (call.subcommand?.bind TalkCommand.ofName?).map TalkCommand.usage
  | "chatadmin" => (call.subcommand?.bind AdminCommand.ofName?).map AdminCommand.usage
  | "chatguestautojoin" => some welcomeUsage
  | _ => none

end Chat

namespace Calendar

def EventCommand.usage : EventCommand → Usage
  | .create => ⟨[.word, .word, .word, .word, .word], false⟩
  | .list => ⟨[.word], false⟩
  | .get | .delete => ⟨[.word, .word], false⟩

/-- What the arguments of a call to the calendar plugin should be, if the method and the subcommand are known. -/
def manual (call : Call) : Option Usage :=
  match call.method with
  | "event" => (call.subcommand?.bind EventCommand.ofName?).map EventCommand.usage
  | _ => none

end Calendar

/-- One of the arguments tells of the arrival of a thing that is no guest, or no player. -/
def OfNoGuest (ps : List (ArgumentKind × String)) : Prop :=
  ∃ text members name, (.arrival, text) ∈ ps ∧ Arrival text members name ∧
    ¬ ("guest".toList <+: name.toList ∧ Keyed.get? members "yoinkedThingType" = some (.string "Player"))

inductive ArgumentKind.Rejects : ArgumentKind → String → ArgumentError → Prop
  | player {name : String} (h : ¬ ArgumentKind.player.Fits name) : Rejects .player name (.playerName name)
  | channel {name : String} (h : ¬ ArgumentKind.channel.Fits name) : Rejects .channel name .channelName
  | noObject {text : String} {cause : Json.ReadError} (h : Json.Decoder.members.ofString text = .error cause) :
      Rejects .arrival text (.badPayload cause)
  | noName {text : String} {members : Json.Members} (h : Json.Decoder.any.ofString text = .ok (.object members))
      (hname : ∀ name, ¬ Arrival text members name) : Rejects .arrival text (.noPayloadField "yoinkedThingName")

def Rejected (ps : List (ArgumentKind × String)) (cause : ArgumentError) : Prop := ∃ p ∈ ps, p.1.Rejects p.2 cause

inductive Usage.Rejects (u : Usage) (arguments : List String) : ArgumentError → Prop
  | count (hclosed : u.openEnded = false) (h : arguments.length ≠ u.kinds.length) :
      Rejects u arguments (.count u.kinds.length arguments.length)
  | tooFew (hopen : u.openEnded = true) (h : arguments.length < u.kinds.length) :
      Rejects u arguments (.tooFew u.kinds.length arguments.length)
  | argument {cause : ArgumentError} (h : Rejected (u.kinds.zip arguments) cause) : Rejects u arguments cause

theorem ArgumentKind.fits_iff (kind : ArgumentKind) (text : String) :
    kind.Fits text ↔ ∀ cause, ¬ kind.Rejects text cause := by
  constructor
  · rintro h cause (hp | hc | hread | ⟨hread, hname⟩)
    · exact hp h
    · exact hc h
    · obtain ⟨members, name, hany, -⟩ := h
      rw [Json.Decoder.ofString_members_eq_ok_iff.mpr hany] at hread
      cases hread
    · obtain ⟨members, name, hany, hmember⟩ := h
      cases hany.symm.trans hread
      exact hname name ⟨hany, hmember⟩
  · intro h
    by_contra hfits
    cases kind with
    | word => exact hfits trivial
    | player => exact h _ (.player hfits)
    | channel => exact h _ (.channel hfits)
    | arrival =>
      cases hread : Json.Decoder.members.ofString text with
      | error cause => exact h _ (.noObject hread)
      | ok members =>
        have hany := Json.Decoder.ofString_members_eq_ok_iff.mp hread
        exact h _ (.noName hany fun name hname => hfits ⟨members, name, hname⟩)

theorem Arrival.fits {text : String} {members : Json.Members} {name : String} (h : Arrival text members name) :
    ArgumentKind.arrival.Fits text := ⟨members, name, h⟩

theorem Arrival.ofNoGuest_iff {text : String} {members : Json.Members} {name : String} (h : Arrival text members name) :
    OfNoGuest [(.arrival, text)] ↔
      ¬ ("guest".toList <+: name.toList ∧ Keyed.get? members "yoinkedThingType" = some (.string "Player")) := by
  constructor
  · rintro ⟨_, _, _, hp, harrived, hother⟩
    cases List.mem_singleton.mp hp
    obtain ⟨rfl, rfl⟩ := harrived.unique h
    exact hother
  · intro hother
    exact ⟨text, members, name, List.mem_singleton_self _, h, hother⟩

theorem not_rejected_of_fits {ps : List (ArgumentKind × String)} (h : ∀ p ∈ ps, p.1.Fits p.2) (cause : ArgumentError) :
    ¬ Rejected ps cause := by
  rintro ⟨p, hp, hcause⟩
  exact (ArgumentKind.fits_iff p.1 p.2).mp (h p hp) cause hcause

/-- Of as many arguments as the command takes only a single one can be wrong. -/
theorem Usage.rejects_iff {u : Usage} {arguments : List String} (h : u.Takes arguments.length) (cause : ArgumentError) :
    u.Rejects arguments cause ↔ Rejected (u.kinds.zip arguments) cause := by
  constructor
  · rintro (⟨hclosed, hcount⟩ | ⟨hopen, hfew⟩ | hwrong)
    · exact absurd (by simpa [Takes, hclosed] using h) hcount
    · exact absurd (by simpa [Takes, hopen] using h) (Nat.not_le.mpr hfew)
    · exact hwrong
  · exact .argument

theorem Usage.accepts_iff (u : Usage) (arguments : List String) :
    u.Accepts arguments ↔ ∀ cause, ¬ u.Rejects arguments cause := by
  constructor
  · rintro ⟨hcount, hfits⟩ cause hcause
    exact not_rejected_of_fits hfits cause ((rejects_iff hcount cause).mp hcause)
  · intro h
    refine ⟨?_, fun p hp => (ArgumentKind.fits_iff _ _).mpr fun cause hcause => h cause (.argument ⟨p, hp, hcause⟩)⟩
    unfold Takes
    split
    · next hopen => exact Nat.not_lt.mp fun hfew => h _ (.tooFew hopen hfew)
    · next hclosed => exact by_contra fun hcount => h _ (.count (by simpa using hclosed) hcount)

end WorldPlugins
