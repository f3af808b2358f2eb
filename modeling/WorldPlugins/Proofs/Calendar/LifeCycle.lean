import Mathlib.Tactic.Choose
import WorldPlugins.Proofs.Calendar.Outcomes
import WorldPlugins.Proofs.Calendar.RoundTrips
import WorldPlugins.Proofs.Plugin.Serving
import WorldPlugins.Proofs.Store.Orderly
import WorldPlugins.Proofs.Time.Zone

/-! # The life of an event

From the moment it is made until somebody writes to the store, an event is shown to every player in that player's zone,
stands in the list once, keeps others from its name, and goes only at the word of the player who made it.  Then all is
as it was before.
-/

namespace WorldPlugins.Calendar

open Session (outcome outcome_bind Quiet quiet_bind quiet_throw)

def Calls (extension : String) (arguments : List String) (input : Text.Raw) : Prop :=
  ∃ id, Plugin.callOf? input = some ⟨id, "event", extension, arguments⟩

def Succeeds [Time.ZoneData] (config : Config) (input : Text.Raw) (s t : Store) : Prop :=
  let played := plugin.serve config Store.exchange input s
  played.value.isSuccess = true ∧ played.state = t

/-- An input is refused, and neither changes the store nor asks it for a change. -/
def Refuses [Time.ZoneData] (config : Config) (input : Text.Raw) (s : Store) (refusal : Refusal) : Prop :=
  let played := plugin.serve config Store.exchange input s
  (∃ id, played.value = Plugin.respond id (.error (.refused refusal))) ∧ played.state = s ∧
    ∀ r ∈ played.sent, ¬ r.Changes

variable {config : Config} {input : Text.Raw} {call : Call} {handler : Handler Json} {s t u : Store}

theorem succeeds_of_outcome [Time.ZoneData] {result : Json} (hcall : Plugin.callOf? input = some call)
    (hhandler : plugin.handler? config call = some handler) (h : outcome handler s = (.ok result, t)) :
    Succeeds config input s t := by
  obtain ⟨id, hserved⟩ := Plugin.serve_handled hcall hhandler
  obtain ⟨hvalue, hstate⟩ := hserved s
  rw [h] at hvalue hstate
  refine ⟨?_, hstate⟩
  rw [hvalue]
  rfl

theorem refuses_of_outcome [Time.ZoneData] {refusal : Refusal} (hcall : Plugin.callOf? input = some call)
    (hhandler : plugin.handler? config call = some handler) (h : outcome handler s = (.error (.refused refusal), s))
    (hquiet : Quiet s handler.run) : Refuses config input s refusal := by
  obtain ⟨id, hserved⟩ := Plugin.serve_handled hcall hhandler
  obtain ⟨hvalue, hstate⟩ := hserved s
  rw [h] at hvalue hstate
  refine ⟨⟨id, hvalue⟩, hstate, ?_⟩
  rcases Plugin.sent_cases plugin config Store.exchange input s with hnone | ⟨found, other, hfound, hother, hsent⟩
  · rw [hnone]
    exact nofun
  · cases hfound.symm.trans hcall
    cases hother.symm.trans hhandler
    rw [hsent]
    exact hquiet _ 1

variable (ctx : Context) {name : String} {event : Event}

private theorem quiet_create [Time.ZoneData] {a : Attr} (h : s.fetch ctx.extension (Event.storedName name) = .ok a)
    (description startText location : String) : Quiet s (create ctx name description startText location).run := by
  refine quiet_bind (Client.reads_hasAttr ctx.extension (Event.storedName name) true).ofApi ?_
  intro has hhas
  rw [Session.outcome_ofApi, outcome_hasAttr, h] at hhas
  cases hhas
  exact quiet_throw s _

private theorem quiet_delete (hs : s.Reliable) (hextension : ctx.extension ≠ "")
    (h : Holds s ctx.extension (Event.storedName name) event) {owner : String} (howner : event.owner = some owner)
    (hother : owner ≠ s.caller) : Quiet s (delete ctx name).run := by
  refine quiet_bind (reads_load ctx name) ?_
  intro loaded hloaded
  rw [outcome_load ctx hs hextension h] at hloaded
  cases hloaded
  refine quiet_bind Client.reads_getCallerName.ofApi ?_
  intro caller hcaller
  rw [Session.outcome_ofApi, Store.outcome_getCallerName, hs.fetchCaller] at hcaller
  cases hcaller
  rw [howner]
  dsimp only
  rw [if_neg hother]
  exact quiet_throw s _

/-- A store is what another became when an event was added that it did not have. -/
structure Added (extension : String) (event : Event) (before s : Store) : Prop where
  extension_ne : extension ≠ ""
  absent : before.attr? extension (Event.storedName event.name) = none
  representable : Time.isRepresentable event.start = true
  things : s.things = (before.withAttr extension event.toAttr).things

namespace Added

variable {extension : String} {before : Store} (h : Added extension event before s)

include h

theorem holds : Holds s extension (Event.storedName event.name) event := by
  refine ⟨event.toAttr, ?_, Event.ofAttr_toAttr event h.representable⟩
  rw [Store.attr?_congr h.things]
  exact before.attr?_withAttr_self extension event.toAttr

theorem attributes : s.attributes extension = before.attributes extension ++ [event.toAttr] := by
  rw [Store.attributes_congr h.things]
  exact before.attributes_withAttr_of_none h.absent

/-- Among the names of events, that of the added event comes last. -/
theorem storedNames_eq : storedNames s extension = storedNames before extension ++ [Event.storedName event.name] := by
  have hlast : event.toAttr.name = Event.storedName event.name := rfl
  rw [storedNames, h.attributes, List.map_append, List.filter_append, List.map_singleton, hlast, storedNames]
  simp

/-- No other name of an event is that of the added event. -/
theorem nameOf_ne {stored : String} (hstored : stored ∈ storedNames before extension) :
    Event.nameOf stored ≠ event.name := by
  obtain ⟨hmem, hevent⟩ := List.mem_filter.mp hstored
  rintro hname
  have hsame : stored = Event.storedName event.name := by rw [← hname, Event.storedName_nameOf hevent]
  rw [hsame, Store.mem_names_iff, h.absent] at hmem
  cases hmem

/-- If all the other events can be read, there is an event under each name. -/
theorem exists_holds (hothers : ∀ a ∈ s.attributes extension, Event.isStoredName a.name = true →
      a.name ≠ Event.storedName event.name → ∃ other, Event.ofAttr a = .ok other) :
    ∀ stored ∈ storedNames s extension, ∃ e, Holds s extension stored e := by
  intro stored hstored
  obtain ⟨hmem, hevent⟩ := List.mem_filter.mp hstored
  by_cases hsame : stored = Event.storedName event.name
  · rw [hsame]
    exact ⟨event, h.holds⟩
  · obtain ⟨a, ha⟩ := Option.isSome_iff_exists.mp ((s.mem_names_iff extension stored).mp hmem)
    have hname := s.name_of_attr? extension stored ha
    subst hname
    obtain ⟨other, hother⟩ := hothers a (List.mem_of_find?_eq_some ha) hevent hsame
    exact ⟨other, a, ha, hother⟩

/-- Among all events, only the added one has its name. -/
theorem filter_events {events : String → Event}
    (hevents : ∀ stored ∈ storedNames s extension, Holds s extension stored (events stored)) :
    ((storedNames s extension).map events).filter (fun e => e.name == event.name) = [event] := by
  rw [h.storedNames_eq, List.forall_mem_append, List.forall_mem_singleton] at hevents
  have hothers : ((storedNames before extension).map events).filter (fun e => e.name == event.name) = [] := by
    rw [List.filter_eq_nil_iff]
    intro e he
    obtain ⟨stored, hstored, rfl⟩ := List.mem_map.mp he
    rw [(hevents.1 stored hstored).name_eq, beq_iff_eq]
    exact h.nameOf_ne hstored
  rw [h.storedNames_eq, List.map_append, List.filter_append, hothers, List.map_singleton, hevents.2.unique h.holds]
  simp

/-- Taking the event out brings back the attributes of every thing. -/
theorem attributes_without (thing : String) :
    (s.without extension (Event.storedName event.name)).attributes thing = before.attributes thing := by
  have hthings : (s.without extension (Event.storedName event.name)).things =
      ((before.withAttr extension event.toAttr).without extension event.toAttr.name).things := by
    rw [Store.without, Store.attributes_congr h.things, Store.setAttributes, h.things]
    rfl
  rw [Store.attributes_congr hthings]
  exact before.attributes_without_withAttr h.absent thing

end Added

/-- In a table of events a name has as many rows as there are events of this name. -/
theorem rows_table {events : List Event} (h : events.filter (fun e => e.name == name) = [event]) (zone : Time.Zone) :
    (table events zone).rows.filter (fun row => row.head? == some name) = [[event.name, event.displayStart zone]] := by
  have hsorted : ((events.mergeSort Event.precedes).filter fun e => e.name == name) = [event] := by
    have hperm := (List.mergeSort_perm events Event.precedes).filter fun e => e.name == name
    rw [h] at hperm
    exact List.perm_singleton.mp hperm
  rw [table, List.filter_map]
  exact congrArg (List.map fun e => [e.name, e.displayStart zone]) hsorted

/-- What calls of the plugin come to in a store that holds a player's event and was `before` without it. -/
structure Lives [Time.ZoneData] (config : Config) (extension creator : String) (event : Event) (before s : Store) :
    Prop where
  /-- Everybody can look at the event. -/
  shown : ∀ zone : Time.Zone, zone.GoesBy s.timezone → ∀ input, Calls extension ["get", event.name] input →
    Succeeds config input s { s with sent := s.sent ++ [⟨s.caller, none, some "Event details:",
      some ⟨["Name", "Time", "Location", "Organizer", "", ""],
        [event.name, Time.Moment.display ⟨event.start, 0⟩ zone, event.location, creator, "", event.description]⟩,
      none⟩] }
  /-- The event stands in the list once, if all the others can be read. -/
  listed : (∀ a ∈ s.attributes extension, Event.isStoredName a.name = true → a.name ≠ Event.storedName event.name →
      ∃ other, Event.ofAttr a = .ok other) →
    ∀ zone : Time.Zone, zone.GoesBy s.timezone → ∀ input, Calls extension ["list"] input →
      ∃ events,
        Succeeds config input s { s with sent := s.sent ++ [⟨s.caller, none, some "Events:", none, some events⟩] } ∧
        events.rows.filter (fun row => row.head? == some event.name) =
          [[event.name, Time.Moment.display ⟨event.start, 0⟩ zone]]
  /-- Its name is taken. -/
  taken : ∀ input description startText location,
    Calls extension ["create", event.name, description, startText, location] input →
      Refuses config input s (.eventExists (Event.storedName event.name))
  /-- Nobody but its creator can delete it. -/
  guarded : s.caller ≠ creator → ∀ input, Calls extension ["delete", event.name] input →
    Refuses config input s .notOwner
  /-- Its creator can, and then all is as before. -/
  undone : s.caller = creator → ∀ input, Calls extension ["delete", event.name] input →
    ∃ t, Succeeds config input s t ∧ ∀ thing, t.attributes thing = before.attributes thing

namespace Added

variable {extension creator : String} {before : Store} (h : Added extension event before s) (hs : s.Reliable)

include h hs in
/-- An event that was added is listed once, whatever the order of the list. -/
private theorem listed [Time.ZoneData] (config : Config)
    (hothers : ∀ a ∈ s.attributes extension, Event.isStoredName a.name = true →
      a.name ≠ Event.storedName event.name → ∃ other, Event.ofAttr a = .ok other)
    {zone : Time.Zone} (hzone : zone.GoesBy s.timezone) (hcalls : Calls extension ["list"] input) :
    ∃ events,
      Succeeds config input s { s with sent := s.sent ++ [⟨s.caller, none, some "Events:", none, some events⟩] } ∧
      events.rows.filter (fun row => row.head? == some event.name) =
        [[event.name, Time.Moment.display ⟨event.start, 0⟩ zone]] := by
  obtain ⟨id, hcall⟩ := hcalls
  have hsome : storedNames s extension ≠ [] := by
    rw [h.storedNames_eq]
    exact List.append_ne_nil_of_right_ne_nil _ (List.cons_ne_nil _ _)
  have hheld := h.exists_holds hothers
  have : Nonempty Event := ⟨event⟩
  choose! events hevents using hheld
  let ctx : Context := ⟨⟨id, "event", extension, ["list"]⟩, config⟩
  have houtcome := outcome_list ctx hs h.extension_ne hsome hevents
  rw [Time.Zone.goesBy_iff.mp hzone] at houtcome
  exact ⟨_, succeeds_of_outcome hcall rfl houtcome, rows_table (h.filter_events hevents) _⟩

include h hs in
theorem lives [Time.ZoneData] (config : Config) (howner : event.owner = some creator) :
    Lives config extension creator event before s := by
  have hextension := h.extension_ne
  obtain ⟨a, ha, -⟩ := h.holds
  have hfetch := hs.fetch_of_some hextension (Event.storedName_ne_empty event.name) ha
  refine ⟨?_, fun hothers zone hzone input hcalls => h.listed hs config hothers hzone hcalls, ?_, ?_, ?_⟩
  · rintro zone hzone input ⟨id, hcall⟩
    let ctx : Context := ⟨⟨id, "event", extension, ["get", event.name]⟩, config⟩
    have houtcome := outcome_get ctx hs hextension h.holds
    rw [details, howner, Time.Zone.goesBy_iff.mp hzone] at houtcome
    exact succeeds_of_outcome hcall rfl houtcome
  · rintro input description startText location ⟨id, hcall⟩
    let ctx : Context := ⟨⟨id, "event", extension, ["create", event.name, description, startText, location]⟩, config⟩
    have houtcome := outcome_create_of_taken ctx hfetch description startText location
    exact refuses_of_outcome hcall rfl houtcome (quiet_create ctx hfetch description startText location)
  · rintro hother input ⟨id, hcall⟩
    let ctx : Context := ⟨⟨id, "event", extension, ["delete", event.name]⟩, config⟩
    have houtcome := outcome_delete ctx hs hextension h.holds howner
    rw [if_neg (Ne.symm hother)] at houtcome
    exact refuses_of_outcome hcall rfl houtcome (quiet_delete ctx hs hextension h.holds howner (Ne.symm hother))
  · rintro hsame input ⟨id, hcall⟩
    let ctx : Context := ⟨⟨id, "event", extension, ["delete", event.name]⟩, config⟩
    have houtcome := outcome_delete ctx hs hextension h.holds howner
    rw [if_pos hsame.symm] at houtcome
    exact ⟨_, succeeds_of_outcome hcall rfl houtcome, h.attributes_without⟩

end Added

/-- An event that was made has its life in every store with the same attributes, whoever calls and from whatever zone.
Of its start the whole seconds are kept; a leap second counts as the second before it. -/
theorem lives_of_created [Time.ZoneData] (config : Config) (hs : s.Reliable)
    {extension name description startText location : String}
    (hcalls : Calls extension ["create", name, description, startText, location] input)
    (hcreated : Succeeds config input s t) :
    ∃ (zone : Time.Zone) (start : Time.Moment), zone.GoesBy s.timezone ∧
      Time.readStart startText zone = some start ∧ ∀ u : Store, u.Reliable → u.things = t.things →
        Lives config extension s.caller ⟨name, description, start.seconds, location, some s.caller⟩ s u := by
  obtain ⟨id, hcall⟩ := hcalls
  obtain ⟨hok, rfl⟩ := hcreated
  let ctx : Context := ⟨⟨id, "event", extension, ["create", name, description, startText, location]⟩, config⟩
  have hhandler : plugin.handler? config ctx.call = some (create ctx name description startText location) := rfl
  obtain ⟨response, hserved⟩ := Plugin.serve_handled hcall hhandler
  obtain ⟨hvalue, hstate⟩ := hserved s
  rw [hvalue, Plugin.isSuccess_respond] at hok
  obtain ⟨start, hextension, habsent, hstart, hmade⟩ := outcome_create_of_isOk ctx hs hok
  refine ⟨_, start, Time.Zone.goesBy_iff.mpr rfl, hstart, ?_⟩
  intro u hu hthings
  rw [hstate, hmade] at hthings
  have hadded : Added extension ⟨name, description, start.seconds, location, some s.caller⟩ s u :=
    ⟨hextension, habsent, Time.isRepresentable_of_readStart hstart, hthings⟩
  exact hadded.lives hu config rfl

def createHashText : Text.Raw :=
  Plugin.textOfCall "event" "\"create\",\"#party\",\"Bring snacks\",\"2020-09-13T21:26:40.75Z\",\"Lounge\""

def partyWorld : Store :=
  ((Store.empty.withCaller "Alice").withTimezone "Asia/Tokyo").withAttr "ext"
    (Event.toAttr ⟨"party", "", 0, "Hall", none⟩)

/-- Alice's event has its life where Bob calls from New York. -/
theorem lives_of_created_hash :
    Calls "ext" ["create", "#party", "Bring snacks", "2020-09-13T21:26:40.75Z", "Lounge"] createHashText ∧
      ∃ made, Succeeds Config.standard createHashText partyWorld made ∧
        Lives Config.standard "ext" "Alice" ⟨"#party", "Bring snacks", 1600032400, "Lounge", some "Alice"⟩ partyWorld
          { partyWorld with things := made.things, caller := "Bob", timezone := "America/New_York" } := by
  have hcalls : Calls "ext" ["create", "#party", "Bring snacks", "2020-09-13T21:26:40.75Z", "Lounge"]
      createHashText := by
    refine ⟨"call", ?_⟩
    simp only [createHashText, Plugin.textOfCall, Text.Raw.ofString, String.toList_append, String.reduceToList]
    decide +kernel
  have hread : Time.readStart "2020-09-13T21:26:40.75Z" (.ofName "Asia/Tokyo") = some ⟨1600032400, 750000000⟩ := by
    decide +kernel
  have hreliable : partyWorld.Reliable := rfl
  have hsucceeds : (plugin.serve Config.standard Store.exchange createHashText partyWorld).value.isSuccess = true := by
    simp only [createHashText, Plugin.textOfCall, Text.Raw.ofString, String.toList_append, String.reduceToList]
    decide +kernel
  obtain ⟨made, hcreated⟩ : ∃ made, Succeeds Config.standard createHashText partyWorld made := ⟨_, hsucceeds, rfl⟩
  obtain ⟨zone, start, hzone, hstart, hlives⟩ := lives_of_created Config.standard hreliable hcalls hcreated
  cases Time.Zone.goesBy_iff.mp hzone
  cases hstart.symm.trans hread
  exact ⟨hcalls, made, hcreated, hlives _ hreliable rfl⟩

end WorldPlugins.Calendar
