import SupervisorApi.Endpoint.Basic

set_option autoImplicit false

namespace SupervisorApi

namespace Endpoint

def addons : Endpoint :=
  fetchPart ["addons"] Addons.list (.list Addons.installed) fun ((xs, ()), ()) => xs

def addonInfo : Endpoint :=
  fetch ["addons", .given .addon, "info"] Addons.installedComplete

def uninstallAddon : Endpoint :=
  send ["addons", .given .addon, "uninstall"] (.optional Addons.uninstallOptions)

def startAddon : Endpoint :=
  command ["addons", .given .addon, "start"]

def stopAddon : Endpoint :=
  command ["addons", .given .addon, "stop"]

def restartAddon : Endpoint :=
  command ["addons", .given .addon, "restart"]

def rebuildAddon : Endpoint :=
  sendWithin .disabled ["addons", .given .addon, "rebuild"] .nothing

def setAddonOptions : Endpoint :=
  send ["addons", .given .addon, "options"] (.model Addons.options)

def validateAddonConfig : Endpoint :=
  ask ["addons", .given .addon, "options", "validate"] .object Addons.configCheck

def addonConfig : Endpoint :=
  { fetch ["addons", .given .addon, "options", "config"] .json with holds := .object }

def writeAddonInput : Endpoint :=
  send ["addons", .given .addon, "stdin"] .bytes

def setAddonSecurity : Endpoint :=
  send ["addons", .given .addon, "security"] (.model Addons.securityOptions)

def addonStats : Endpoint :=
  fetch ["addons", .given .addon, "stats"] System.containerStats

def reloadAddons : Endpoint :=
  command ["addons", "reload"]

def addonChangelog : Endpoint :=
  fetchText ["addons", .given .addon, "changelog"]

def addonDocumentation : Endpoint :=
  fetchText ["addons", .given .addon, "documentation"]

def storeInfo : Endpoint :=
  fetch ["store"] Store.info

def storeAddons : Endpoint :=
  fetchPart ["store", "addons"] Store.addons (.list Store.addon) fun ((xs, ()), ()) => xs

def storeAddonInfo : Endpoint :=
  fetch ["store", "addons", .given .addon] Store.addonComplete

def storeAddonChangelog : Endpoint :=
  fetchText ["store", "addons", .given .addon, "changelog"]

def storeAddonDocumentation : Endpoint :=
  fetchText ["store", "addons", .given .addon, "documentation"]

def storeAddonAvailability : Endpoint :=
  probe ["store", "addons", .given .addon, "availability"]

def installAddon : Endpoint :=
  send ["store", "addons", .given .addon, "install"]
    (.optionalJob Store.installOptions fun ((background, ()), ()) => background)

def updateAddon : Endpoint :=
  send ["store", "addons", .given .addon, "update"]
    (.optionalJob Store.updateOptions fun ((_, background, ()), ()) => background)

def reloadStore : Endpoint :=
  command ["store", "reload"]

def repositories : Endpoint :=
  fetch ["store", "repositories"] (.list Store.repository)

def repositoryInfo : Endpoint :=
  fetch ["store", "repositories", .given .repository] Store.repository

def addRepository : Endpoint :=
  send ["store", "repositories"] (.model Store.newRepository)

def removeRepository : Endpoint :=
  remove ["store", "repositories", .given .repository]

def addonTable : List (String × Endpoint) :=
  [("addons.list", addons), ("addons.addon_info", addonInfo),
    ("addons.uninstall_addon", uninstallAddon), ("addons.start_addon", startAddon),
    ("addons.stop_addon", stopAddon), ("addons.restart_addon", restartAddon),
    ("addons.rebuild_addon", rebuildAddon), ("addons.addon_options", setAddonOptions),
    ("addons.addon_config_validate", validateAddonConfig),
    ("addons.addon_config", addonConfig), ("addons.addon_stdin", writeAddonInput),
    ("addons.addon_security", setAddonSecurity), ("addons.addon_stats", addonStats),
    ("addons.reload", reloadAddons), ("addons.addon_changelog", addonChangelog),
    ("addons.addon_documentation", addonDocumentation), ("store.info", storeInfo),
    ("store.addons_list", storeAddons), ("store.addon_info", storeAddonInfo),
    ("store.addon_changelog", storeAddonChangelog),
    ("store.addon_documentation", storeAddonDocumentation),
    ("store.addon_availability", storeAddonAvailability),
    ("store.install_addon", installAddon), ("store.update_addon", updateAddon),
    ("store.reload", reloadStore), ("store.repositories_list", repositories),
    ("store.repository_info", repositoryInfo), ("store.add_repository", addRepository),
    ("store.remove_repository", removeRepository)]

end Endpoint

end SupervisorApi
