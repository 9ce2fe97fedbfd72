import SupervisorApi.Endpoint.Basic

set_option autoImplicit false

namespace SupervisorApi

namespace Endpoint

def info : Endpoint :=
  fetch ["info"] System.info

def availableUpdates : Endpoint :=
  fetchPart ["available_updates"] System.updates (.list System.update) fun ((xs, ()), ()) => xs

def refreshUpdates : Endpoint :=
  command ["refresh_updates"]

def reloadUpdates : Endpoint :=
  command ["reload_updates"]

def ping : Endpoint :=
  probe ["supervisor", "ping"]

def supervisorInfo : Endpoint :=
  fetch ["supervisor", "info"] System.supervisorInfo

def supervisorStats : Endpoint :=
  fetch ["supervisor", "stats"] System.containerStats

def updateSupervisor : Endpoint :=
  sendWithin .disabled ["supervisor", "update"] (.optional System.supervisorUpdate)

def reloadSupervisor : Endpoint :=
  command ["supervisor", "reload"]

def restartSupervisor : Endpoint :=
  command ["supervisor", "restart"]

def setSupervisorOptions : Endpoint :=
  send ["supervisor", "options"] (.changes System.supervisorOptions)

def repairSupervisor : Endpoint :=
  command ["supervisor", "repair"]

def coreInfo : Endpoint :=
  fetch ["core", "info"] Core.info

def coreStats : Endpoint :=
  fetch ["core", "stats"] System.containerStats

def setCoreOptions : Endpoint :=
  send ["core", "options"] (.changes Core.options)

def updateCore : Endpoint :=
  sendWithin .disabled ["core", "update"] (.optionalChanges Core.updateOptions)

def restartCore : Endpoint :=
  sendWithin powerTimeout ["core", "restart"] (.optionalChanges Core.restartOptions)

def stopCore : Endpoint :=
  sendWithin powerTimeout ["core", "stop"] (.optional Core.stopOptions)

def startCore : Endpoint :=
  command ["core", "start"]

def checkCoreConfig : Endpoint :=
  command ["core", "check"]

def rebuildCore : Endpoint :=
  sendWithin powerTimeout ["core", "rebuild"] (.optionalChanges Core.rebuildOptions)

def jobsInfo : Endpoint :=
  fetch ["jobs", "info"] Jobs.info

def setJobsOptions : Endpoint :=
  send ["jobs", "options"] (.model Jobs.options)

def resetJobs : Endpoint :=
  command ["jobs", "reset"]

def job : Endpoint :=
  fetch ["jobs", .given .job] Jobs.job

def deleteJob : Endpoint :=
  remove ["jobs", .given .job]

def discoveryMessages : Endpoint :=
  fetchPart ["discovery"] Discovery.messages (.list Discovery.message) fun ((xs, ()), ()) => xs

def discoveryMessage : Endpoint :=
  fetch ["discovery", .given .uuid] Discovery.message

def deleteDiscovery : Endpoint :=
  remove ["discovery", .given .uuid]

def announce : Endpoint :=
  { send ["discovery"] (.model Discovery.config) with
    asks := some .json
    holds := .part Discovery.added .uuid fun ((id, ()), ()) => id }

def resolutionInfo : Endpoint :=
  fetch ["resolution", "info"] Resolution.info

def setCheckOptions : Endpoint :=
  send ["resolution", "check", .given .check, "options"] (.changes Resolution.checkOptions)

def runCheck : Endpoint :=
  command ["resolution", "check", .given .check, "run"]

def applySuggestion : Endpoint :=
  command ["resolution", "suggestion", .given .uuid]

def dismissSuggestion : Endpoint :=
  remove ["resolution", "suggestion", .given .uuid]

def dismissIssue : Endpoint :=
  remove ["resolution", "issue", .given .uuid]

def suggestionsForIssue : Endpoint :=
  fetchPart ["resolution", "issue", .given .uuid, "suggestions"] Resolution.suggestions
    (.list Resolution.suggestion) fun ((xs, ()), ()) => xs

def healthCheck : Endpoint :=
  command ["resolution", "healthcheck"]

def systemTable : List (String × Endpoint) :=
  [("info", info), ("available_updates", availableUpdates),
    ("refresh_updates", refreshUpdates), ("reload_updates", reloadUpdates),
    ("supervisor.ping", ping), ("supervisor.info", supervisorInfo),
    ("supervisor.stats", supervisorStats), ("supervisor.update", updateSupervisor),
    ("supervisor.reload", reloadSupervisor), ("supervisor.restart", restartSupervisor),
    ("supervisor.options", setSupervisorOptions), ("supervisor.repair", repairSupervisor),
    ("homeassistant.info", coreInfo), ("homeassistant.stats", coreStats),
    ("homeassistant.options", setCoreOptions), ("homeassistant.update", updateCore),
    ("homeassistant.restart", restartCore), ("homeassistant.stop", stopCore),
    ("homeassistant.start", startCore), ("homeassistant.check_config", checkCoreConfig),
    ("homeassistant.rebuild", rebuildCore), ("jobs.info", jobsInfo),
    ("jobs.set_options", setJobsOptions), ("jobs.reset", resetJobs), ("jobs.get_job", job),
    ("jobs.delete_job", deleteJob), ("discovery.list", discoveryMessages),
    ("discovery.get", discoveryMessage), ("discovery.delete", deleteDiscovery),
    ("discovery.set", announce), ("resolution.info", resolutionInfo),
    ("resolution.check_options", setCheckOptions), ("resolution.run_check", runCheck),
    ("resolution.apply_suggestion", applySuggestion),
    ("resolution.dismiss_suggestion", dismissSuggestion),
    ("resolution.dismiss_issue", dismissIssue),
    ("resolution.suggestions_for_issue", suggestionsForIssue),
    ("resolution.healthcheck", healthCheck)]

end Endpoint

end SupervisorApi
