import WorldPlugins.Attr.Fields
import WorldPlugins.NameList
import WorldPlugins.Plugin.Dispatch

/-! # A plugin that probes an installation

The `probe` method asks for one thing at a time: whether arguments arrive, attributes and fields can be read,
the caller is known, and refusals come back.
-/

namespace WorldPlugins.Probe

def echo (arguments : List String) : Handler Json := pure (.strings arguments)

/-- Gives the message of the day, as the caller may read it. -/
def motd (ctx : Context) : Handler Json := do
  let a ← Client.getAttr ctx.extension "motd" false
  pure a.toJson

/-- Refuses with the arguments as the reason. -/
def reject (arguments : List String) : Handler Json :=
  Handler.refuse (.stated (NameList.joinWith ' ' arguments))

/-- Gives the integer in a field of the extension's data. -/
def field (ctx : Context) (name : String) : Handler Json := do
  let data ← Client.getAttr ctx.extension "#data" true
  let found ← data.find name
  let value ← found.integerValue
  pure (.int value)

/-- Tells who calls, and whether an access list of these players lets the caller pass. -/
def whoami (ctx : Context) (players : List String) : Handler Json := do
  let name ← Client.getCallerName
  let allowed ← ctx.may .see ⟨⟨[], players⟩, .unrestricted⟩ name
  pure (.object
    [("allowed", .bool allowed), ("name", .string name), ("superuser", .string ctx.config.superuser)])

def family : Family := fun ctx =>
  match ctx.call.arguments with
  | "echo" :: arguments => some (echo arguments)
  | "motd" :: _ => some (motd ctx)
  | "reject" :: arguments => some (reject arguments)
  | "field" :: name :: _ => some (field ctx name)
  | ["field"] => some (Handler.misused (.tooFew 2 1))
  | "whoami" :: players => some (whoami ctx players)
  | _ => none

def plugin : Plugin := [("probe", family)]

end WorldPlugins.Probe
