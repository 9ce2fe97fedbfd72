import SupervisorApi.Program.Basic
import SupervisorApi.Program.Layout

set_option autoImplicit false

namespace SupervisorApi

namespace Overview

def source : String := "supervisor_info"

def summaryOf (supervisor : String) (core system : Option String) (arch : String)
    (state : System.state.Value) (channel : System.channel.Value) : List String :=
  ["Supervisor " ++ supervisor ++ " (" ++ Layout.title System.state state ++ ")",
    "  Home Assistant: " ++ Layout.orDash core,
    "  OS:             " ++ Layout.orDash system,
    "  Arch:           " ++ arch,
    "  Channel:        " ++ Layout.title System.channel channel]

def summary : System.info.Val → List String
  | ((supervisor, core, _, _, _, system, _, _, arch, state, _, _, channel, _), _) =>
    summaryOf supervisor core system arch state channel

def addonLineOf (slug : String) (version : Option String) (state : Addons.state.Value) : String :=
  "  " ++ Layout.left 32 slug ++ " " ++ Layout.left 12 (Layout.orDash version) ++ " "
    ++ Layout.title Addons.state state

def addonLine : Addons.installed.Val → String
  | ((state, _), ((_, _, _, _, _, _, _, _, _, _, slug, _, _, _, _, version, _), _), _) =>
    addonLineOf slug version state

def updateLineOf (kind : System.updateType.Value) (panelPath latest : String)
    (name : Option String) : String :=
  "Update available: " ++ name.getD panelPath ++ " -> " ++ latest ++ " ("
    ++ Layout.title System.updateType kind ++ ")"

def updateLine : System.update.Val → String
  | ((kind, panelPath, latest, name, _), _) => updateLineOf kind panelPath latest name

def addonLines : Except ApiError (List Addons.installed.Val) → Except ApiError (List String)
  | .ok addons => .ok (addons.map addonLine)
  | .error e => if e.is .forbidden then .ok ["  (not permitted)"] else .error e

def updateLines (updates : List System.update.Val) : List String :=
  if updates.isEmpty then ["Everything is up to date."] else updates.map updateLine

open Program

def updates (c : Client) (s : Session) : Program :=
  need Endpoint.availableUpdates c s .blank () fun _ xs =>
    printAll (updateLines xs) (.ended none)

def addons (c : Client) (s : Session) : Program :=
  printAll ["", "Add-ons:"]
    (ask Endpoint.addons c s .blank () fun s r =>
      match addonLines r with
      | .ok lines => printAll (lines ++ [""]) (updates c s)
      | .error e => fail e.display)

def main (environment : String → Option String) : Program :=
  withClient environment (fun settings => { settings with timeout := some (.ofSeconds 5) })
    fun c s =>
      need Endpoint.ping c s .blank () fun s () =>
        .report (.info source "supervisor is reachable")
          (need Endpoint.info c s .blank () fun s info => printAll (summary info) (addons c s))

end Overview

end SupervisorApi
