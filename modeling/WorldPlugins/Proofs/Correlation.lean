import WorldPlugins.Proofs.Calendar.RoundTrips
import WorldPlugins.Proofs.Chat.Commands
import WorldPlugins.Proofs.Chat.Requests

/-! # What every request to the store carries

Whatever the store replies, the requests of a call are numbered from 1 without gaps, each has the id of the call, and
those about attributes name the extension.  The chat plugin asks on the authority of the extension, and so does the
calendar plugin; only administration writes on that of the caller.
-/

namespace WorldPlugins

open Json (Members)
open Session (Follows)

/-- A request with its number takes a step of a script on behalf of a call: it has the id of the call, and names what
the step is about. -/
structure Correlated (call : Call) (number : Nat) (step : Step) (r : Request) : Prop where
  id : r.id = some (.number number)
  method : r.method = step.method.name
  params : ∃ params : Members, r.params = some (.object params) ∧
    Keyed.get? params callIdKey = some (.string call.id) ∧
    Addressed call.extension step.asExtension step.method params

/-- The requests are numbered from 1, and take steps on behalf of a call that are allowed at their places. -/
def AsksInOrder (call : Call) (allowed : Nat → Step → Prop) (sent : List Request) : Prop :=
  ∀ k r, sent[k]? = some r → ∃ step, allowed k step ∧ Correlated call (k + 1) step r

section

variable {σ α ε : Type} {call : Call}

private theorem correlated_request {step : Step} {method : String} {params : Members}
    (h : step.TakenBy call.extension (method, params)) (number : Nat) :
    Correlated call number step (Session.request call.id number method params) := by
  refine ⟨rfl, h.1.symm, _, rfl, ?_, h.2.insert_callId step.asExtension (.string call.id)⟩
  exact Keyed.get?_insert_self _ _ _

private theorem asksInOrder_of_asksFor {x : Session α} {kind : StoreMethod → Bool}
    (h : x.AsksFor call.extension true kind) (exchange : Exchange σ) (state : σ) :
    AsksInOrder call (fun _ step => step.asExtension = true) (x.run exchange call.id 1 state).sent := by
  intro k r hr
  obtain ⟨method, params, rfl, m, -, hname, haddressed⟩ := h.sent_getElem? exchange 1 state k r hr
  rw [Nat.add_comm k 1]
  exact ⟨⟨m, true⟩, rfl, correlated_request ⟨hname, haddressed⟩ _⟩

private theorem asksInOrder_of_follows {x : ExceptT ε Session α} {scripts : List (List Step)}
    (h : Follows call.extension scripts x) (exchange : Exchange σ) (state : σ) :
    ∃ script ∈ scripts,
      AsksInOrder call (fun k step => script[k]? = some step) (x.run.run exchange call.id 1 state).sent := by
  obtain ⟨script, hscript, hsent⟩ := h.sent exchange call.id 1 state
  refine ⟨script, hscript, ?_⟩
  intro k r hr
  obtain ⟨step, method, params, hstep, rfl, htaken⟩ := hsent k r hr
  rw [Nat.add_comm k 1]
  exact ⟨step, hstep, correlated_request htaken _⟩

end

def Request.OnCallerAuthority (r : Request) : Prop :=
  ∃ params : Members, r.params = some (.object params) ∧ Keyed.get? params authorityKey = some (.bool false)

namespace Chat

/-- What administration writes, it writes on the authority of the caller. -/
private theorem onCaller_of_scripts (command : AdminCommand) :
    ∀ script ∈ command.scripts, ∀ step ∈ script, step.method.keeps = false → step.asExtension = false := by
  cases command with
  | setAccess action => cases action <;> decide
  | _ => decide

private theorem onCallerAuthority_of_changes {call : Call} {number : Nat} {step : Step} {r : Request}
    (h : Correlated call number step r) (hchanges : r.Changes)
    (hcaller : step.method.keeps = false → step.asExtension = false) : r.OnCallerAuthority := by
  have hwrites : step.method.keeps = false ∧ step.method.namesAuthority = true := by
    rw [Request.Changes, h.method] at hchanges
    cases hmethod : step.method with
    | setAttr => decide
    | removeAttr => decide
    | _ =>
      rw [hmethod] at hchanges
      exact absurd hchanges (by decide)
  obtain ⟨params, hparams, -, haddressed⟩ := h.params
  have hauthority := haddressed.authority hwrites.2
  rw [hcaller hwrites.1] at hauthority
  exact ⟨params, hparams, hauthority⟩

private theorem onCallerAuthority_of_asksInOrder {call : Call} {command : AdminCommand} {script : List Step}
    {sent : List Request} (hscript : script ∈ command.scripts)
    (h : AsksInOrder call (fun k step => script[k]? = some step) sent) :
    ∀ r ∈ sent, r.Changes → r.OnCallerAuthority := by
  intro r hr hchanges
  obtain ⟨k, hk⟩ := List.mem_iff_getElem?.mp hr
  obtain ⟨step, hstep, hcorrelated⟩ := h k r hk
  have hmem : step ∈ script := List.mem_of_getElem? hstep
  exact onCallerAuthority_of_changes hcorrelated hchanges (onCaller_of_scripts command script hscript step hmem)

end Chat

/-- For every input in bytes and every way in which the store replies, the requests of the chat plugin and of the
calendar plugin are numbered from 1 without gaps, each with the id of the call, and those about attributes name the
extension and no empty attribute.  All are made on the authority of the extension, but for administration: its
requests follow a script of the command, and what changes attributes is on the authority of the caller. -/
theorem requests_correlated [Time.ZoneData] {σ : Type} (config : Config) (exchange : Exchange σ) (bytes : List UInt8)
    (state : σ) :
    let input := Text.decode bytes
    let byChat := (Chat.plugin.serve config exchange input state).sent
    let byCalendar := (Calendar.plugin.serve config exchange input state).sent
    (byChat = [] ∨ ∃ call, Plugin.callOf? input = some call ∧
      ((call.method ≠ "chatadmin" ∧ AsksInOrder call (fun _ step => step.asExtension = true) byChat) ∨
        (call.method = "chatadmin" ∧ (∀ r ∈ byChat, r.Changes → r.OnCallerAuthority) ∧
          ∃ command, call.subcommand?.bind Chat.AdminCommand.ofName? = some command ∧ ∃ script ∈ command.scripts,
            AsksInOrder call (fun k step => script[k]? = some step) byChat))) ∧
      (byCalendar = [] ∨ ∃ call, Plugin.callOf? input = some call ∧
        AsksInOrder call (fun _ step => step.asExtension = true) byCalendar) := by
  intro input byChat byCalendar
  constructor
  · rcases Chat.plugin.sent_cases config exchange input state with hnone | ⟨call, handler, hcall, hhandler, hsent⟩
    · exact .inl hnone
    refine .inr ⟨call, hcall, ?_⟩
    simp only [byChat, hsent]
    rcases Chat.handler?_cases hhandler with ⟨hmethod, subcommand, command, -, -, rfl⟩ |
      ⟨hmethod, subcommand, command, hsub, hname, rfl⟩ | ⟨hmethod, rfl⟩
    · refine .inl ⟨by simp [hmethod], ?_⟩
      exact asksInOrder_of_asksFor (Chat.asks_run ⟨call, config⟩ command) exchange state
    · have hcommand : call.subcommand?.bind Chat.AdminCommand.ofName? = some command := by rw [hsub]; exact hname
      obtain ⟨script, hscript, hasked⟩ :=
        asksInOrder_of_follows (Chat.follows_run ⟨call, config⟩ command) exchange state
      exact .inr ⟨hmethod, Chat.onCallerAuthority_of_asksInOrder hscript hasked, command, hcommand, script, hscript,
        hasked⟩
    · refine .inl ⟨by simp [hmethod], ?_⟩
      exact asksInOrder_of_asksFor (Chat.asks_welcome ⟨call, config⟩) exchange state
  · rcases Calendar.plugin.sent_cases config exchange input state with hnone |
      ⟨call, handler, hcall, hhandler, hsent⟩
    · exact .inl hnone
    obtain ⟨-, subcommand, command, -, -, rfl⟩ := Calendar.handler?_cases hhandler
    refine .inr ⟨call, hcall, ?_⟩
    simp only [byCalendar, hsent]
    exact asksInOrder_of_asksFor (Calendar.asks_run ⟨call, config⟩ command) exchange state

end WorldPlugins
