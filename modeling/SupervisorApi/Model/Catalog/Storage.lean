import SupervisorApi.Model.Slots

set_option autoImplicit false

namespace SupervisorApi

open Slots (must may sparse field)

namespace Mounts

def usage : Choice where
  names := ["backup", "media", "share"]

def state : Choice where
  names := ["active", "activating", "deactivating", "failed", "inactive", "maintenance",
    "reloading"]

def cifsVersion : Choice where
  names := ["1.0", "2.0"]

def baseFields : Slots :=
  .ofList [must "usage" (.choice usage), must "server" .text, sparse "port" .port]

def base : Shape :=
  .record baseFields .nil

def statusFields : Slots :=
  .ofList [must "name" .text, must "read_only" .bool, may "state" (.choice state),
    may "user_path" .text]

def status : Shape :=
  .record statusFields .nil

def mountParts : Parts :=
  .record baseFields .nil (.record statusFields .nil .nil)

def cifsMountFields : Slots :=
  .ofList [must "share" .text, field "version" (.choice cifsVersion)]

def cifsMount : Shape :=
  .record cifsMountFields mountParts

def nfsMountFields : Slots :=
  .ofList [must "path" .text]

def nfsMount : Shape :=
  .record nfsMountFields mountParts

def mount : Shape :=
  .tagged "type"
    (.cons "cifs" cifsMountFields mountParts (.cons "nfs" nfsMountFields mountParts .nil))

def common : mount.Val → base.Val × status.Val
  | .inl (_, base, status, _) => (base, status)
  | .inr (.inl (_, base, status, _)) => (base, status)

def requestParts : Parts :=
  .record baseFields .nil .nil

def cifsRequestFields : Slots :=
  .ofList [must "share" .text, field "version" (.choice cifsVersion), field "read_only" .bool,
    field "username" .text, field "password" .text]

def cifsRequest : Shape :=
  .record cifsRequestFields requestParts

def nfsRequestFields : Slots :=
  .ofList [must "path" .text, field "read_only" .bool]

def nfsRequest : Shape :=
  .record nfsRequestFields requestParts

def request : Shape :=
  .tagged "type"
    (.cons "cifs" cifsRequestFields requestParts (.cons "nfs" nfsRequestFields requestParts .nil))

def info : Shape :=
  .plain [may "default_backup_mount" .text, must "mounts" (.list mount)]

def options : Shape :=
  .plain [may "default_backup_mount" .text]

def mountsOf : info.Val → List mount.Val
  | ((_, mounts, ()), ()) => mounts

end Mounts

namespace Backups

def kind : Choice where
  names := ["full", "partial"]

def content : Shape :=
  .plain [must "homeassistant" .bool, must "addons" (.list .text),
    must "folders" (.list (.choice folder))]

def baseFields : Slots :=
  .ofList [must "slug" .text, must "name" .text, must "date" .timestamp,
    must "type" (.choice kind), must "size" .real, must "size_bytes" .int64, may "location" .text,
    must "locations" (.set .nullableText), must "protected" .bool, must "compressed" .bool]

def base : Shape :=
  .record baseFields .nil

def backup : Shape :=
  .record (.ofList [must "content" content])
    (.record baseFields .nil .nil)

def addon : Shape :=
  .plain [must "slug" .text, must "name" .text, must "version" .text, must "size" .real]

def complete : Shape :=
  .record (.ofList [must "supervisor_version" .text, may "homeassistant" .text,
    must "addons" (.list addon), must "repositories" (.list .text),
    must "folders" (.list (.choice folder)), may "homeassistant_exclude_database" .bool,
    may "extra" .object])
    (.record baseFields .nil .nil)

def backups : Shape :=
  .plain [must "backups" (.list backup)]

def info : Shape :=
  .plain [must "backups" (.list backup), must "days_until_stale" .int64]

def options : Shape :=
  .plain [must "days_until_stale" .int64]

def freezeOptions : Shape :=
  .plain [must "timeout" .int64]

def selection : Shape :=
  .selection

def fullBackupFields : Slots :=
  .ofList [field "name" .text, field "password" .text, field "compressed" .bool,
    field "location" .location, field "homeassistant_exclude_database" .bool,
    field "background" .bool, field "extra" .object]

def fullBackup : Shape :=
  .record fullBackupFields .nil

def partialBackup : Shape :=
  .record (.ofList [])
    (.record fullBackupFields .nil (.selection .nil))

def fullRestoreFields : Slots :=
  .ofList [field "password" .text, field "background" .bool]

def fullRestore : Shape :=
  .record fullRestoreFields .nil

def partialRestore : Shape :=
  .record (.ofList [])
    (.record fullRestoreFields .nil (.selection .nil))

def started : Shape :=
  .plain [must "job_id" .text]

def created : Shape :=
  .plain [must "job_id" .text, sparse "slug" .text]

def uploaded : Shape :=
  .plain [must "slug" .text]

def removal : Shape :=
  .plain [must "location" (.set .nullableText)]

def ofSelection (s : Selection) (options : fullBackup.Val) : partialBackup.Val :=
  ((), options, s, ())

def restoreOfSelection (s : Selection) (options : fullRestore.Val) : partialRestore.Val :=
  ((), options, s, ())

end Backups

end SupervisorApi
