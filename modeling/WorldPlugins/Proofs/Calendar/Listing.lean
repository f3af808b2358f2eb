import WorldPlugins.Proofs.Calendar.LifeCycle
import WorldPlugins.Proofs.Store.Reordered
import WorldPlugins.Proofs.Text.Bytes

/-! # Listings of events

`event list` sends one table with a row for each event.  The rows are in the order of the starts, which are instants,
and of the names where starts agree; neither the order in which the world keeps its attributes nor the zone of the
caller has a part in it.  A single event that cannot be read makes the call fail.
-/

namespace WorldPlugins.Calendar

open Session (outcome)

namespace Event

def Before (a b : Event) : Prop :=
  a.start < b.start ∨ a.start = b.start ∧ a.name.toUTF8.data.toList < b.name.toUTF8.data.toList

theorem Before.asymm {a b : Event} (h : a.Before b) : ¬ b.Before a := by
  rintro (hstart | ⟨hsame, hname⟩)
  · rcases h with hlt | ⟨heq, -⟩
    · omega
    · omega
  · rcases h with hlt | ⟨-, hbefore⟩
    · omega
    · exact List.lt_asymm hbefore hname

theorem precedes_iff (a b : Event) :
    a.precedes b = true ↔ a.start < b.start ∨ a.start = b.start ∧ a.name ≤ b.name := by
  simp [precedes]

theorem precedes_trans (a b c : Event) (hab : a.precedes b = true) (hbc : b.precedes c = true) :
    a.precedes c = true := by
  rw [precedes_iff] at hab hbc ⊢
  rcases hab with hab | ⟨hab, hname⟩
  · left
    omega
  · rcases hbc with hbc | ⟨hbc, hrest⟩
    · left
      omega
    · exact .inr ⟨hab.trans hbc, le_trans hname hrest⟩

theorem precedes_total (a b : Event) : (a.precedes b || b.precedes a) = true := by
  rw [Bool.or_eq_true, precedes_iff, precedes_iff]
  rcases Int.lt_trichotomy a.start b.start with hlt | heq | hgt
  · exact .inl (.inl hlt)
  · rcases le_total a.name b.name with hle | hle
    · exact .inl (.inr ⟨heq, hle⟩)
    · exact .inr (.inr ⟨heq.symm, hle⟩)
  · exact .inr (.inl hgt)

theorem before_of_precedes {a b : Event} (h : a.precedes b = true) (hne : a.name ≠ b.name) : a.Before b := by
  rcases (precedes_iff a b).mp h with hstart | ⟨hsame, hname⟩
  · exact .inl hstart
  · exact .inr ⟨hsame, (Text.toUTF8_lt_iff _ _).mpr (lt_of_le_of_ne hname hne)⟩

end Event

/-- Events of different names are sorted with none on a par. -/
theorem pairwise_before {events : List Event} (h : (events.map Event.name).Nodup) :
    (events.mergeSort Event.precedes).Pairwise Event.Before := by
  have hsorted : (events.mergeSort Event.precedes).Pairwise fun a b => a.precedes b = true :=
    List.pairwise_mergeSort Event.precedes_trans Event.precedes_total events
  have hnames : (events.mergeSort Event.precedes).Pairwise fun a b => a.name ≠ b.name :=
    List.pairwise_map.mp ((((List.mergeSort_perm events _).map Event.name).nodup_iff).mpr h)
  exact (hsorted.and hnames).imp fun h => Event.before_of_precedes h.1 h.2

theorem mergeSort_eq_of_perm {events others : List Event} (h : others.Perm events)
    (hnames : (events.map Event.name).Nodup) :
    others.mergeSort Event.precedes = events.mergeSort Event.precedes := by
  have hothers : (others.map Event.name).Nodup := (h.map Event.name).nodup_iff.mpr hnames
  refine List.Perm.eq_of_pairwise ?_ (pairwise_before hothers) (pairwise_before hnames)
    ((List.mergeSort_perm others _).trans (h.trans (List.mergeSort_perm events _).symm))
  intro a b _ _ hab hba
  exact absurd hba hab.asymm

/-- These are the events that an extension stores, one for each attribute with the name of an event, in their order. -/
structure Schedule (s : Store) (extension : String) (events : List Event) : Prop where
  stored : ∃ attrs, List.Forall₂ (fun e a => a.name = Event.storedName e.name ∧ Event.ofAttr a = .ok e) events attrs ∧
    attrs.Perm ((s.attributes extension).filter fun a => Event.isStoredName a.name)
  ordered : events.Pairwise Event.Before

/-- What the caller is sent: a table of names and starts, or a notice if there are no events. -/
def announcement (events : List Event) (caller : String) (zone : Time.Zone) : Sent :=
  if events = [] then notice caller "No events found"
  else ⟨caller, none, some "Events:", none, some ⟨[⟨"NAME", "%-40.40s"⟩, ⟨"TIME", "%s"⟩],
    events.map fun e => [e.name, Time.Moment.display ⟨e.start, 0⟩ zone]⟩⟩

section

variable {s t : Store} {extension : String} {events : String → Event}

theorem nodup_names (hnamed : s.Named extension)
    (hevents : ∀ stored ∈ storedNames s extension, Holds s extension stored (events stored)) :
    (((storedNames s extension).map events).map Event.name).Nodup := by
  rw [List.map_map]
  refine List.Nodup.map_on ?_ (hnamed.filter _)
  intro m hm n hn hsame
  have hnames : Event.nameOf m = Event.nameOf n := by
    rw [← (hevents m hm).name_eq, ← (hevents n hn).name_eq]
    exact hsame
  rw [← Event.storedName_nameOf (List.mem_filter.mp hm).2, hnames, Event.storedName_nameOf (List.mem_filter.mp hn).2]

/-- Sorted, the events under the names of an extension are its schedule. -/
theorem schedule_mergeSort (hnamed : s.Named extension)
    (hevents : ∀ stored ∈ storedNames s extension, Holds s extension stored (events stored)) :
    Schedule s extension (((storedNames s extension).map events).mergeSort Event.precedes) := by
  refine ⟨?_, pairwise_before (nodup_names hnamed hevents)⟩
  have hmap : (storedNames s extension).map events =
      ((s.attributes extension).filter fun a => Event.isStoredName a.name).map fun a => events a.name := by
    rw [storedNames, List.filter_map, List.map_map]
    rfl
  have hread : List.Forall₂ (fun e a => a.name = Event.storedName e.name ∧ Event.ofAttr a = .ok e)
      ((storedNames s extension).map events)
      ((s.attributes extension).filter fun a => Event.isStoredName a.name) := by
    rw [hmap, List.forall₂_map_left_iff, List.forall₂_same]
    intro a ha
    obtain ⟨hmem, hname⟩ := List.mem_filter.mp ha
    have hstored : a.name ∈ storedNames s extension :=
      List.mem_filter.mpr ⟨List.mem_map_of_mem hmem, hname⟩
    have hholds := hevents a.name hstored
    refine ⟨?_, ?_⟩
    · rw [hholds.name_eq, Event.storedName_nameOf hname]
    · obtain ⟨b, hb, hevent⟩ := hholds
      cases ((hnamed.attr?_eq_some_iff a).mpr ⟨hmem, rfl⟩).symm.trans hb
      exact hevent
  obtain ⟨attrs, hattrs, hperm⟩ := List.perm_comp_forall₂ (List.mergeSort_perm _ Event.precedes) hread
  exact ⟨attrs, hattrs, hperm⟩

theorem Schedule.eq_nil_iff {schedule : List Event} (h : Schedule s extension schedule) :
    schedule = [] ↔ ∀ a ∈ s.attributes extension, Event.isStoredName a.name = false := by
  obtain ⟨attrs, hread, hperm⟩ := h.stored
  rw [← List.length_eq_zero_iff, hread.length_eq, hperm.length_eq, List.length_eq_zero_iff, List.filter_eq_nil_iff]
  simp

theorem holds_reordered (h : s.Reordered t) (hnamed : s.Named extension) {stored : String} {event : Event} :
    Holds t extension stored event ↔ Holds s extension stored event := by
  simp only [Holds, (h.named hnamed).attr?_eq_some_iff, hnamed.attr?_eq_some_iff, h.mem_iff]

theorem storedNames_reordered (h : s.Reordered t) (extension : String) :
    (storedNames t extension).Perm (storedNames s extension) :=
  ((h.attributes extension).map Attr.name).filter Event.isStoredName

end

section

variable [Time.ZoneData] {s : Store} {extension : String}

/-- What a list comes to if there is an event under each name. -/
private theorem outcome_list_of_holds (ctx : Context) (hs : s.Reliable) (hextension : ctx.extension ≠ "")
    (hknown : (s.thing? ctx.extension).isSome = true) {events : String → Event}
    (hevents : ∀ stored ∈ storedNames s ctx.extension, Holds s ctx.extension stored (events stored)) :
    outcome (list ctx) s = (.ok (.string ""), s.deliver (announcement
      (((storedNames s ctx.extension).map events).mergeSort Event.precedes) s.caller (.ofName s.timezone))) := by
  have hempty : ((storedNames s ctx.extension).map events).mergeSort Event.precedes = [] ↔
      storedNames s ctx.extension = [] := by
    rw [← List.length_eq_zero_iff, List.length_mergeSort, List.length_map, List.length_eq_zero_iff]
  by_cases hnone : storedNames s ctx.extension = []
  · rw [outcome_list_of_none ctx hs hextension hknown hnone, announcement, if_pos (hempty.mpr hnone)]
  · rw [outcome_list ctx hs hextension hnone hevents, announcement, if_neg (mt hempty.mp hnone)]
    rfl

/-- If every attribute with the name of an event can be read, a list sends the caller the schedule, a row for each
event with its name and with its start in the caller's zone, or says that there are no events if there are none.  The
schedule is the same for every order of the attributes and for every zone.  If one of them cannot be read, the call
fails, and nothing is sent. -/
theorem schedule_announced (config : Config) (s : Store) (extension : String) (hs : s.Reliable)
    (hextension : extension ≠ "") (hknown : (s.thing? extension).isSome = true) (hnamed : s.Named extension) :
    ((∀ a ∈ s.attributes extension, Event.isStoredName a.name = true → ∃ e, Event.ofAttr a = .ok e) →
      ∃ events, Schedule s extension events ∧
        (events = [] ↔ ∀ a ∈ s.attributes extension, Event.isStoredName a.name = false) ∧
        ∀ t, s.Reordered t → ∀ name (zone : Time.Zone), zone.GoesBy name → ∀ input, Calls extension ["list"] input →
          Succeeds config input (t.withTimezone name)
            { t.withTimezone name with sent := t.sent ++ [announcement events s.caller zone] }) ∧
      ((∃ a ∈ s.attributes extension, Event.isStoredName a.name = true ∧ ∀ e, Event.ofAttr a ≠ .ok e) →
        ∀ t, s.Reordered t → ∀ name input, Calls extension ["list"] input →
          let played := plugin.serve config Store.exchange input (t.withTimezone name)
          played.value.isSuccess = false ∧ played.state = t.withTimezone name) := by
  constructor
  · intro hread
    have hheld : ∀ stored ∈ storedNames s extension, ∃ e, Holds s extension stored e := by
      intro stored hstored
      obtain ⟨hmem, hname⟩ := List.mem_filter.mp hstored
      obtain ⟨a, ha, rfl⟩ := List.mem_map.mp hmem
      obtain ⟨e, he⟩ := hread a ha hname
      exact ⟨e, a, (hnamed.attr?_eq_some_iff a).mpr ⟨ha, rfl⟩, he⟩
    have : Nonempty Event := ⟨⟨"", "", 0, "", none⟩⟩
    choose! events hevents using hheld
    have hschedule := schedule_mergeSort hnamed hevents
    refine ⟨_, hschedule, hschedule.eq_nil_iff, ?_⟩
    rintro t ht name zone hzone input ⟨id, hcall⟩
    let ctx : Context := ⟨⟨id, "event", extension, ["list"]⟩, config⟩
    have hperm := storedNames_reordered ht extension
    have hmoved : ∀ stored ∈ storedNames t extension, Holds t extension stored (events stored) :=
      fun stored hstored => (holds_reordered ht hnamed).mpr (hevents stored (hperm.mem_iff.mp hstored))
    have houtcome := outcome_list_of_holds (s := t.withTimezone name) ctx (ht.reliable hs) hextension
      ((ht.known extension).trans hknown) hmoved
    have hsorted : ((storedNames (t.withTimezone name) ctx.extension).map events).mergeSort Event.precedes =
        ((storedNames s extension).map events).mergeSort Event.precedes :=
      mergeSort_eq_of_perm (hperm.map events) (nodup_names hnamed hevents)
    have hcaller : (t.withTimezone name).caller = s.caller := ht.caller
    have hofName : .ofName (t.withTimezone name).timezone = zone := Time.Zone.goesBy_iff.mp hzone
    rw [hsorted, hcaller, hofName] at houtcome
    exact succeeds_of_outcome hcall rfl houtcome
  · rintro ⟨a, ha, hname, hunreadable⟩ t ht timezone input ⟨id, hcall⟩
    let ctx : Context := ⟨⟨id, "event", extension, ["list"]⟩, config⟩
    have hattr : t.attr? extension a.name = some a :=
      ((ht.named hnamed).attr?_eq_some_iff a).mpr ⟨(ht.mem_iff extension a).mpr ha, rfl⟩
    obtain ⟨e, hfailed⟩ := outcome_list_of_unreadable (s := t.withTimezone timezone) ctx (ht.reliable hs) hextension
      hattr hname hunreadable
    have hhandler : plugin.handler? config ctx.call = some (list ctx) := rfl
    obtain ⟨response, hserved⟩ := Plugin.serve_handled hcall hhandler
    obtain ⟨hvalue, hstate⟩ := hserved (t.withTimezone timezone)
    rw [hfailed] at hvalue hstate
    refine ⟨?_, hstate⟩
    rw [hvalue]
    rfl

end

def listEvents : Text.Raw := Plugin.textOfCall "event" "\"list\""

def meals : Store :=
  (Store.empty.withAttr "ext" (Event.toAttr ⟨"supper", "", 1600032400, "", none⟩)).withAttr "ext"
    (Event.toAttr ⟨"lunch", "", 1600000000, "", none⟩)

/-- The events are listed in Tokyo, but not any more once there is something else with such a name. -/
theorem schedule_announced_meals :
    (∃ events, Schedule meals "ext" events ∧ events ≠ [] ∧
        Succeeds Config.standard listEvents (meals.withTimezone "Asia/Tokyo")
          { meals.withTimezone "Asia/Tokyo" with
            sent := meals.sent ++ [announcement events "caller" ⟨"Asia/Tokyo", 32400, []⟩] }) ∧
      (plugin.serve Config.standard Store.exchange listEvents
        ((meals.withAttr "ext" (.string "#note" "")).withTimezone "UTC")).value.isSuccess = false := by
  have hcalls : Calls "ext" ["list"] listEvents := by
    refine ⟨"call", ?_⟩
    simp only [listEvents, Plugin.textOfCall, Text.Raw.ofString, String.toList_append, String.reduceToList]
    decide +kernel
  have hmeals : meals.attributes "ext" = [Event.toAttr ⟨"supper", "", 1600032400, "", none⟩,
      Event.toAttr ⟨"lunch", "", 1600000000, "", none⟩] := by decide +kernel
  have hnamed : ∀ thing, meals.Named thing :=
    Store.named_withAttr (Store.named_withAttr Store.named_empty _ _) _ _
  constructor
  · have hread : ∀ a ∈ meals.attributes "ext", Event.isStoredName a.name = true → ∃ e, Event.ofAttr a = .ok e := by
      rw [hmeals, List.forall_mem_cons, List.forall_mem_singleton]
      exact ⟨fun _ => ⟨_, Event.ofAttr_toAttr _ (by decide)⟩, fun _ => ⟨_, Event.ofAttr_toAttr _ (by decide)⟩⟩
    obtain ⟨events, hschedule, hempty, hlisted⟩ :=
      (schedule_announced Config.standard meals "ext" rfl (by decide) (by decide) (hnamed "ext")).1 hread
    refine ⟨events, hschedule, ?_, hlisted meals (.refl meals) "Asia/Tokyo" _ (.inl rfl) listEvents hcalls⟩
    rw [ne_eq, hempty, hmeals]
    decide
  · have hattributes : (meals.withAttr "ext" (.string "#note" "")).attributes "ext" =
        [Event.toAttr ⟨"supper", "", 1600032400, "", none⟩, Event.toAttr ⟨"lunch", "", 1600000000, "", none⟩,
          .string "#note" ""] := by decide +kernel
    have hunreadable : ∀ e, Event.ofAttr (.string "#note" "") ≠ .ok e := by
      intro e he
      have hrefused : Event.ofAttr (.string "#note" "") = .error (.typeMismatch "#note" .attrList .string) := rfl
      cases hrefused.symm.trans he
    have hlisted := (schedule_announced Config.standard (meals.withAttr "ext" (.string "#note" "")) "ext" rfl
      (by decide) (by decide) (Store.named_withAttr hnamed _ _ "ext")).2
      ⟨.string "#note" "", by rw [hattributes]; simp, by decide, hunreadable⟩
    exact (hlisted _ (.refl _) "UTC" listEvents hcalls).1

def listNameless : Text.Raw := Plugin.textOfNamelessCall "event" "\"list\""

/-- A thing with an empty id may be in the world, but its attributes cannot be asked for: then the call fails, though
every attribute there is can be read, and the caller is told nothing. -/
theorem nameless_schedule_refused :
    Calls "" ["list"] listNameless ∧ (Store.empty.withThing "").Reliable ∧
      ((Store.empty.withThing "").thing? "").isSome = true ∧ (Store.empty.withThing "").Named "" ∧
      (∀ a ∈ (Store.empty.withThing "").attributes "", ∃ e, Event.ofAttr a = .ok e) ∧
      let played := plugin.serve Config.standard Store.exchange listNameless (Store.empty.withThing "")
      played.value.isSuccess = false ∧ played.state.sent = [] := by
  have hcall : Plugin.callOf? listNameless = some ⟨"call", "event", "", ["list"]⟩ := by
    simp only [listNameless, Plugin.textOfNamelessCall, Text.Raw.ofString, String.toList_append, String.reduceToList]
    decide +kernel
  let ctx : Context := ⟨⟨"call", "event", "", ["list"]⟩, Config.standard⟩
  have houtcome : outcome (list ctx) (Store.empty.withThing "") =
      (.error (.store (.parameters (.empty "thingId"))), Store.empty.withThing "") := by
    have hreliable : (Store.empty.withThing "").Reliable := rfl
    rw [list, Session.outcome_bind, outcome_callerZone hreliable]
    dsimp only
    rw [Session.outcome_bind, Session.outcome_ofApi, Store.outcome_getAttrNames]
    rfl
  have hhandler : plugin.handler? Config.standard ctx.call = some (list ctx) := rfl
  obtain ⟨id, hserved⟩ := Plugin.serve_handled hcall hhandler
  obtain ⟨hvalue, hstate⟩ := hserved (Store.empty.withThing "")
  rw [houtcome] at hvalue hstate
  refine ⟨⟨_, hcall⟩, rfl, rfl, Store.named_withThing Store.named_empty "" "", List.forall_mem_nil _, ?_, ?_⟩
  · rw [hvalue]
    rfl
  · rw [hstate]
    rfl

end WorldPlugins.Calendar
