import WorldPlugins.Calendar.Commands
import WorldPlugins.Proofs.Calendar.Event
import WorldPlugins.Proofs.Rpc.Scripts
import WorldPlugins.Proofs.Store.Reliable

/-! # What the handlers of the calendar plugin come to

One lemma for each handler, in a store in which nothing is made to fail: its result, and the store after it.
-/

namespace WorldPlugins.Calendar

open Session (outcome outcome_bind)
open Store (Reliable)

def notice (caller text : String) : Sent := ⟨caller, some text, none, none, none⟩

variable (ctx : Context) {name : String} {s : Store}

/-- Whether an attribute is there is told by reading it. -/
theorem outcome_hasAttr (thing name : String) (asExtension : Bool) (s : Store) :
    outcome (Client.hasAttr thing name asExtension) s =
      (match s.fetch thing name with
        | .ok _ => .ok true
        | .error e => if e.isNotFound then .ok false else .error e, s) := by
  rw [outcome, Client.run_hasAttr, Session.eval_bind, ← outcome, Store.outcome_getAttr]
  cases s.fetch thing name with
  | ok a => rfl
  | error e =>
    dsimp only
    split <;> rfl

theorem outcome_callerZone [Time.ZoneData] (hs : s.Reliable) :
    outcome callerZone s = (.ok (.ofName s.timezone), s) := by
  rw [callerZone, outcome_bind, Session.outcome_ofApi, Store.outcome_getCallerTimezone, hs.fetchTimezone]
  rfl

private theorem outcome_caller (hs : s.Reliable) :
    outcome (liftM Client.getCallerName : Handler String) s = (.ok s.caller, s) := by
  rw [Session.outcome_ofApi, Store.outcome_getCallerName, hs.fetchCaller]
  rfl

/-- A method that comes through goes on with what follows. -/
private theorem outcome_through {api : Api Unit} {t : Store} {rest : Handler Json} (h : outcome api s = (.ok (), t)) :
    outcome ((liftM api : Handler Unit) >>= fun _ => rest) s = outcome rest t := by
  rw [outcome_bind, Session.outcome_ofApi, h]
  rfl

private theorem outcome_told (hs : s.Reliable) (text : String) :
    outcome (do Client.sendToCaller text; Handler.done : Handler Json) s =
      (.ok (.string ""), s.deliver (notice s.caller text)) := by
  have hsent : outcome (Client.sendToCaller text) s = (.ok (), s.deliver (notice s.caller text)) := by
    rw [Store.outcome_sendToCaller, Store.tell, hs.send]
    rfl
  exact outcome_through hsent

theorem outcome_create_of_taken [Time.ZoneData] {a : Attr} (h : s.fetch ctx.extension (Event.storedName name) = .ok a)
    (description startText location : String) :
    outcome (create ctx name description startText location) s =
      (.error (.refused (.eventExists (Event.storedName name))), s) := by
  rw [create, outcome_bind, Session.outcome_ofApi, outcome_hasAttr, h]
  rfl

/-- Where nothing has the name, an event is made if its start time can be read. -/
theorem outcome_create_of_absent [Time.ZoneData] (hs : s.Reliable) {e : RpcError}
    (h : s.fetch ctx.extension (Event.storedName name) = .error e) (he : e.isNotFound = true)
    (description startText location : String) :
    outcome (create ctx name description startText location) s =
      match Time.readStart startText (.ofName s.timezone) with
      | none => (.error (.argument (.startTime startText)), s)
      | some start =>
        (.ok (.string ""), (s.withAttr ctx.extension
          (Event.toAttr ⟨name, description, start.seconds, location, some s.caller⟩)).deliver
            (notice s.caller ("Created event '" ++ name ++ "'"))) := by
  obtain ⟨hthing, hname, -⟩ := Store.attr?_of_isNotFound hs h he
  rw [create, outcome_bind, Session.outcome_ofApi, outcome_hasAttr, h]
  dsimp only
  rw [if_pos he]
  change outcome (liftM Client.getCallerName >>= _ : Handler Json) s = _
  rw [outcome_bind, outcome_caller hs]
  dsimp only
  rw [outcome_bind, outcome_callerZone hs]
  dsimp only
  cases Time.readStart startText (.ofName s.timezone) with
  | none => rfl
  | some start =>
    refine (outcome_through ?_).trans (outcome_told ?_ _)
    · rw [Store.outcome_setAttr, hs.write hthing hname]
    · exact hs

theorem outcome_create_of_failed [Time.ZoneData] {e : RpcError}
    (h : s.fetch ctx.extension (Event.storedName name) = .error e) (he : e.isNotFound = false)
    (description startText location : String) :
    outcome (create ctx name description startText location) s = (.error (.store e), s) := by
  rw [create, outcome_bind, Session.outcome_ofApi, outcome_hasAttr, h]
  dsimp only
  rw [if_neg (ne_true_of_eq_false he)]
  rfl

/-- An event that was made has a name that nothing had, and a start time that could be read. -/
theorem outcome_create_of_isOk [Time.ZoneData] (hs : s.Reliable) {description startText location : String}
    (hok : (outcome (create ctx name description startText location) s).1.isOk = true) :
    ∃ start, ctx.extension ≠ "" ∧ s.attr? ctx.extension (Event.storedName name) = none ∧
      Time.readStart startText (.ofName s.timezone) = some start ∧
      (outcome (create ctx name description startText location) s).2 =
        (s.withAttr ctx.extension (Event.toAttr ⟨name, description, start.seconds, location, some s.caller⟩)).deliver
          (notice s.caller ("Created event '" ++ name ++ "'")) := by
  cases hfetch : s.fetch ctx.extension (Event.storedName name) with
  | ok a =>
    rw [outcome_create_of_taken ctx hfetch] at hok
    cases hok
  | error e =>
    cases he : e.isNotFound with
    | false =>
      rw [outcome_create_of_failed ctx hfetch he] at hok
      cases hok
    | true =>
      obtain ⟨hextension, -, habsent⟩ := Store.attr?_of_isNotFound hs hfetch he
      have houtcome := outcome_create_of_absent ctx hs hfetch he description startText location
      cases hstart : Time.readStart startText (.ofName s.timezone) with
      | none =>
        rw [houtcome, hstart] at hok
        cases hok
      | some start =>
        rw [hstart] at houtcome
        exact ⟨start, hextension, habsent, rfl, by rw [houtcome]⟩

def storedNames (s : Store) (extension : String) : List String :=
  ((s.attributes extension).map Attr.name).filter Event.isStoredName

/-- An event is stored under a name of the extension. -/
def Holds (s : Store) (extension stored : String) (event : Event) : Prop :=
  ∃ a, s.attr? extension stored = some a ∧ Event.ofAttr a = .ok event

variable {event : Event}

theorem Holds.name_eq {extension stored : String} (h : Holds s extension stored event) :
    event.name = Event.nameOf stored := by
  obtain ⟨a, ha, hevent⟩ := h
  rw [Event.name_of_ofAttr hevent, s.name_of_attr? extension stored ha]

theorem Holds.unique {extension stored : String} {other : Event} (h : Holds s extension stored event)
    (hother : Holds s extension stored other) : event = other := by
  obtain ⟨a, ha, hevent⟩ := h
  obtain ⟨b, hb, hread⟩ := hother
  cases ha.symm.trans hb
  exact Except.ok.inj (hevent.symm.trans hread)

theorem outcome_load (hs : s.Reliable) (hextension : ctx.extension ≠ "")
    (h : Holds s ctx.extension (Event.storedName name) event) : outcome (load ctx name) s = (.ok event, s) := by
  obtain ⟨a, ha, hevent⟩ := h
  have hget : (Client.getAttr ctx.extension (Event.storedName name) true).run.eval s = (.ok a, s) := by
    rw [← outcome, Store.outcome_getAttr, hs.fetch_of_some hextension (Event.storedName_ne_empty name) ha]
  rw [load, outcome_bind, Session.outcome_lift, hget]
  dsimp only
  rw [Session.outcome_ofAttr, hevent]
  rfl

theorem outcome_get [Time.ZoneData] (hs : s.Reliable) (hextension : ctx.extension ≠ "")
    (h : Holds s ctx.extension (Event.storedName name) event) :
    outcome (get ctx name) s =
      (.ok (.string ""), s.deliver ⟨s.caller, none, some "Event details:",
        some (details name event (.ofName s.timezone)), none⟩) := by
  rw [get, outcome_bind, outcome_load ctx hs hextension h]
  dsimp only
  rw [outcome_bind, outcome_callerZone hs]
  refine outcome_through ?_
  rw [Store.outcome_sendRecord, hs.send]

/-- Events that are all there are loaded in the order of their names. -/
theorem outcome_loadAll (hs : s.Reliable) (hextension : ctx.extension ≠ "") {names : List String}
    {events : String → Event} (hnames : ∀ stored ∈ names, stored ≠ "")
    (hevents : ∀ stored ∈ names, Holds s ctx.extension stored (events stored)) :
    outcome (loadAll ctx names) s = (.ok (names.map events), s) := by
  induction names with
  | nil => rfl
  | cons stored names ih =>
    obtain ⟨hstored, hrest⟩ := List.forall_mem_cons.mp hnames
    obtain ⟨⟨a, ha, hevent⟩, hothers⟩ := List.forall_mem_cons.mp hevents
    rw [loadAll, outcome_bind, Session.outcome_ofApi, Store.outcome_getAttr, hs.fetch_of_some hextension hstored ha]
    change outcome ((liftM (Event.ofAttr a) : Handler Event) >>= _) s = _
    rw [outcome_bind, Session.outcome_ofAttr, hevent]
    change outcome (loadAll ctx names >>= _) s = _
    rw [outcome_bind, ih hrest hothers]
    rfl

/-- One that cannot be read is enough for loading to fail. -/
theorem outcome_loadAll_of_unreadable {names : List String} {a : Attr} (hmem : a.name ∈ names)
    (ha : s.attr? ctx.extension a.name = some a) (hunreadable : ∀ e, Event.ofAttr a ≠ .ok e) :
    ∃ e, outcome (loadAll ctx names) s = (.error e, s) := by
  induction names with
  | nil => exact absurd hmem List.not_mem_nil
  | cons stored names ih =>
    rw [loadAll, outcome_bind, Session.outcome_ofApi, Store.outcome_getAttr]
    cases hfetch : s.fetch ctx.extension stored with
    | error e => exact ⟨_, rfl⟩
    | ok b =>
      change ∃ e, outcome ((liftM (Event.ofAttr b) : Handler Event) >>= _) s = (.error e, s)
      rw [outcome_bind, Session.outcome_ofAttr]
      cases hevent : Event.ofAttr b with
      | error cause => exact ⟨_, rfl⟩
      | ok event =>
        have hrest : a.name ∈ names := by
          rcases List.mem_cons.mp hmem with rfl | hrest
          · obtain ⟨-, -, -, hb⟩ := (s.fetch_eq_ok_iff _ _ _).mp hfetch
            cases ha.symm.trans hb
            exact absurd hevent (hunreadable event)
          · exact hrest
        obtain ⟨e, hfailed⟩ := ih hrest
        refine ⟨e, ?_⟩
        change outcome (loadAll ctx names >>= _) s = _
        rw [outcome_bind, hfailed]

/-- A list without events says so. -/
theorem outcome_list_of_none [Time.ZoneData] (hs : s.Reliable) (hextension : ctx.extension ≠ "")
    (hknown : (s.thing? ctx.extension).isSome = true) (hnone : storedNames s ctx.extension = []) :
    outcome (list ctx) s = (.ok (.string ""), s.deliver (notice s.caller "No events found")) := by
  have hnames : ((s.attributes ctx.extension).map Attr.name).filter Event.isStoredName = [] := hnone
  rw [list, outcome_bind, outcome_callerZone hs]
  dsimp only
  rw [outcome_bind, Session.outcome_ofApi, Store.outcome_getAttrNames, hs.fetchNames hextension hknown]
  dsimp only [Except.mapError]
  rw [hnames]
  exact outcome_told hs "No events found"

/-- With any events, listing goes on with loading them. -/
private theorem outcome_list_of_some [Time.ZoneData] (hs : s.Reliable) (hextension : ctx.extension ≠ "")
    (hknown : (s.thing? ctx.extension).isSome = true) (hsome : storedNames s ctx.extension ≠ []) :
    outcome (list ctx) s =
      outcome (do
        let events ← loadAll ctx (storedNames s ctx.extension)
        Client.sendTable (table events (.ofName s.timezone)) "Events:"
        Handler.done : Handler Json) s := by
  rw [list, outcome_bind, outcome_callerZone hs]
  dsimp only
  rw [outcome_bind, Session.outcome_ofApi, Store.outcome_getAttrNames, hs.fetchNames hextension hknown]
  obtain ⟨stored, rest, hstored⟩ := List.exists_cons_of_ne_nil hsome
  have hnames : ((s.attributes ctx.extension).map Attr.name).filter Event.isStoredName = stored :: rest := hstored
  dsimp only [Except.mapError]
  rw [hnames, hstored]

theorem outcome_list [Time.ZoneData] (hs : s.Reliable) (hextension : ctx.extension ≠ "") {events : String → Event}
    (hsome : storedNames s ctx.extension ≠ [])
    (hevents : ∀ stored ∈ storedNames s ctx.extension, Holds s ctx.extension stored (events stored)) :
    outcome (list ctx) s =
      (.ok (.string ""), s.deliver ⟨s.caller, none, some "Events:", none,
        some (table ((storedNames s ctx.extension).map events) (.ofName s.timezone))⟩) := by
  have hnamed (stored : String) (hmem : stored ∈ storedNames s ctx.extension) : stored ≠ "" := by
    rintro rfl
    exact Bool.noConfusion (List.mem_filter.mp hmem).2
  have hknown : (s.thing? ctx.extension).isSome = true := by
    obtain ⟨stored, hmem⟩ := List.exists_mem_of_ne_nil _ hsome
    obtain ⟨a, ha, -⟩ := hevents stored hmem
    rw [s.thing?_eq_some_of_attr? ctx.extension stored ha]
    rfl
  rw [outcome_list_of_some ctx hs hextension hknown hsome, outcome_bind,
    outcome_loadAll ctx hs hextension hnamed hevents]
  refine outcome_through ?_
  rw [Store.outcome_sendTable, hs.send]

/-- A list with an event that cannot be read fails, and nothing is sent. -/
theorem outcome_list_of_unreadable [Time.ZoneData] (hs : s.Reliable) (hextension : ctx.extension ≠ "") {a : Attr}
    (ha : s.attr? ctx.extension a.name = some a) (hname : Event.isStoredName a.name = true)
    (hunreadable : ∀ e, Event.ofAttr a ≠ .ok e) : ∃ e, outcome (list ctx) s = (.error e, s) := by
  have hmem : a.name ∈ storedNames s ctx.extension :=
    List.mem_filter.mpr ⟨(s.mem_names_iff ctx.extension a.name).mpr (Option.isSome_of_mem ha), hname⟩
  have hknown : (s.thing? ctx.extension).isSome = true := by
    rw [s.thing?_eq_some_of_attr? ctx.extension a.name ha]
    rfl
  obtain ⟨e, hfailed⟩ := outcome_loadAll_of_unreadable ctx hmem ha hunreadable
  refine ⟨e, ?_⟩
  rw [outcome_list_of_some ctx hs hextension hknown (List.ne_nil_of_mem hmem), outcome_bind, hfailed]

theorem outcome_delete (hs : s.Reliable) (hextension : ctx.extension ≠ "")
    (h : Holds s ctx.extension (Event.storedName name) event) {owner : String} (howner : event.owner = some owner) :
    outcome (delete ctx name) s =
      if owner = s.caller then
        (.ok (.string ""), (s.without ctx.extension (Event.storedName name)).deliver
          (notice s.caller ("Deleted event '" ++ name ++ "'")))
      else (.error (.refused .notOwner), s) := by
  rw [delete, outcome_bind, outcome_load ctx hs hextension h]
  dsimp only
  rw [outcome_bind, outcome_caller hs]
  dsimp only
  rw [howner]
  dsimp only
  rw [Session.outcome_ite]
  split
  · obtain ⟨a, ha, -⟩ := h
    refine (outcome_through ?_).trans (outcome_told ?_ _)
    · rw [Store.outcome_removeAttr, hs.remove hextension (Event.storedName_ne_empty name) ha]
    · exact hs
  · rfl

end WorldPlugins.Calendar
