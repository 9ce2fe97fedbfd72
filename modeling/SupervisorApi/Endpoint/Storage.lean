import SupervisorApi.Endpoint.Basic

set_option autoImplicit false

namespace SupervisorApi

namespace Endpoint

def backsUpBehind : Backups.fullBackup.Val → Field Bool
  | ((_, _, _, _, _, background, _), _) => background

def restoresBehind : Backups.fullRestore.Val → Field Bool
  | ((_, background, _), _) => background

def backups : Endpoint :=
  fetchPart ["backups"] Backups.backups (.list Backups.backup) fun ((xs, ()), ()) => xs

def backupsInfo : Endpoint :=
  fetch ["backups", "info"] Backups.info

def setBackupsOptions : Endpoint :=
  send ["backups", "options"] (.model Backups.options)

def reloadBackups : Endpoint :=
  command ["backups", "reload"]

def freeze : Endpoint :=
  send ["backups", "freeze"] (.optional Backups.freezeOptions)

def thaw : Endpoint :=
  command ["backups", "thaw"]

def fullBackup : Endpoint :=
  ask ["backups", "new", "full"] (.optionalJob Backups.fullBackup backsUpBehind)
    Backups.created

def partialBackup : Endpoint :=
  ask ["backups", "new", "partial"]
    (.job Backups.partialBackup fun (_, options, _) => backsUpBehind options) Backups.created

def backupInfo : Endpoint :=
  fetch ["backups", .given .backup, "info"] Backups.complete

def removeBackup : Endpoint :=
  { remove ["backups", .given .backup] with sends := .optional Backups.removal }

def fullRestore : Endpoint :=
  ask ["backups", .given .backup, "restore", "full"]
    (.optionalJob Backups.fullRestore restoresBehind) Backups.started

def partialRestore : Endpoint :=
  ask ["backups", .given .backup, "restore", "partial"]
    (.job Backups.partialRestore fun (_, options, _) => restoresBehind options) Backups.started

def uploadBackup : Endpoint :=
  { sendWithin .disabled ["backups", "new", "upload"] .file with
    asks := some .json
    holds := .part Backups.uploaded .text fun ((slug, ()), ()) => slug }

def downloadBackup : Endpoint :=
  { fetchText ["backups", .given .backup, "download"] with
    sends := .source
    timeout := .disabled
    asks := some .stream
    holds := .stream }

def mountsInfo : Endpoint :=
  fetch ["mounts"] Mounts.info

def setMountsOptions : Endpoint :=
  send ["mounts", "options"] (.model Mounts.options)

def createMount : Endpoint :=
  send ["mounts"] (.named Mounts.request "name" .mount)

def updateMount : Endpoint :=
  { send ["mounts", .given .mount] (.model Mounts.request) with method := .put }

def deleteMount : Endpoint :=
  remove ["mounts", .given .mount]

def reloadMount : Endpoint :=
  command ["mounts", .given .mount, "reload"]

def storageTable : List (String × Endpoint) :=
  [("backups.list", backups), ("backups.info", backupsInfo),
    ("backups.options", setBackupsOptions), ("backups.reload", reloadBackups),
    ("backups.freeze", freeze), ("backups.thaw", thaw), ("backups.full_backup", fullBackup),
    ("backups.partial_backup", partialBackup), ("backups.backup_info", backupInfo),
    ("backups.remove_backup", removeBackup), ("backups.full_restore", fullRestore),
    ("backups.partial_restore", partialRestore), ("backups.upload_backup", uploadBackup),
    ("backups.download_backup", downloadBackup), ("mounts.info", mountsInfo),
    ("mounts.options", setMountsOptions), ("mounts.create_mount", createMount),
    ("mounts.update_mount", updateMount), ("mounts.delete_mount", deleteMount),
    ("mounts.reload_mount", reloadMount)]

end Endpoint

end SupervisorApi
