import SupervisorApi.Model.Slots

set_option autoImplicit false

namespace SupervisorApi

open Slots (must may sparse field)

namespace System

def hostFeature : Choice where
  names := ["disk", "haos", "hostname", "journal", "mount", "network", "os_agent", "reboot",
    "resolved", "services", "shutdown", "timedate"]

def state : Choice where
  names := ["initialize", "setup", "startup", "running", "freeze", "shutdown", "stopping",
    "close"]

def channel : Choice where
  names := ["stable", "beta", "dev"]

def logLevel : Choice where
  names := ["debug", "info", "warning", "error", "critical"]

def updateType : Choice where
  names := ["addon", "core", "os", "supervisor"]

def info : Shape :=
  .plain [must "supervisor" .text, may "homeassistant" .text, may "hassos" .text,
    must "docker" .text, may "hostname" .text, may "operating_system" .text,
    must "features" (.list (.lenient hostFeature)), may "machine" .text, must "arch" .text,
    must "state" (.choice state), must "supported_arch" (.list .text), must "supported" .bool,
    must "channel" (.choice channel), must "logging" (.choice logLevel), must "timezone" .text]

def update : Shape :=
  .plain [must "update_type" (.choice updateType), must "panel_path" .text,
    must "version_latest" .text, sparse "name" .text, sparse "icon" .text]

def updates : Shape :=
  .plain [must "available_updates" (.list update)]

def containerStats : Shape :=
  .plain [must "cpu_percent" .real, must "memory_usage" .int64, must "memory_limit" .int64,
    must "memory_percent" .real, must "network_rx" .int64, must "network_tx" .int64,
    must "blk_read" .int64, must "blk_write" .int64]

def supervisorInfo : Shape :=
  .plain [must "version" .text, must "version_latest" .text, must "update_available" .bool,
    must "channel" (.choice channel), must "arch" .text, must "supported" .bool,
    must "healthy" .bool, must "ip_address" .text, may "timezone" .text,
    must "logging" (.choice logLevel), must "debug" .bool, must "debug_block" .bool,
    may "diagnostics" .bool, must "auto_update" .bool]

def supervisorUpdate : Shape :=
  .plain [must "version" .text]

def supervisorOptions : Shape :=
  .plain [field "channel" (.choice channel), field "timezone" .text,
    field "logging" (.choice logLevel), field "debug" .bool, field "debug_block" .bool,
    field "diagnostics" .bool, field "content_trust" .bool, field "force_security" .bool,
    field "auto_update" .bool]

end System

namespace Core

def info : Shape :=
  .plain [may "version" .text, may "version_latest" .text, must "update_available" .bool,
    must "machine" .text, must "ip_address" .ipv4, must "arch" .text, must "image" .text,
    must "boot" .bool, must "port" .port, must "ssl" .bool, must "watchdog" .bool,
    may "audio_input" .text, may "audio_output" .text, must "backups_exclude_database" .bool]

def options : Shape :=
  .plain [field "boot" .bool, field "image" .text, field "port" .port, field "ssl" .bool,
    field "watchdog" .bool, field "refresh_token" .text, field "audio_input" .text,
    field "audio_output" .text, field "backups_exclude_database" .bool]

def updateOptions : Shape :=
  .plain [field "version" .text, field "backup" .bool]

def restartOptions : Shape :=
  .plain [field "safe_mode" .bool, field "force" .bool]

def rebuildOptions : Shape :=
  .plain [field "safe_mode" .bool, field "force" .bool]

def stopOptions : Shape :=
  .plain [must "force" .bool]

end Core

namespace Jobs

def condition : Choice where
  names := ["auto_update", "free_space", "frozen", "haos", "healthy", "host_network",
    "internet_host", "internet_system", "mount_available", "os_agent", "plugins_updated",
    "running", "supervisor_updated"]

def error : Shape :=
  .plain [must "type" .text, must "message" .text]

def job : Shape :=
  .tree (.ofList [may "name" .text, may "reference" .text, must "uuid" .uuid,
    must "progress" .real, may "stage" .text, may "done" .bool, must "errors" (.list error),
    must "created" .timestamp]) "child_jobs"

def info : Shape :=
  .plain [must "ignore_conditions" (.list (.lenient condition)), must "jobs" (.list job)]

def options : Shape :=
  .plain [must "ignore_conditions" (.list (.choice condition))]

end Jobs

end SupervisorApi
