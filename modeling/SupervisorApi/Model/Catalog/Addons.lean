import SupervisorApi.Model.Slots

set_option autoImplicit false

namespace SupervisorApi

open Slots (must may sparse field)

namespace Addons

def stage : Choice where
  names := ["stable", "experimental", "deprecated"]

def boot : Choice where
  names := ["auto", "manual"]

def bootConfig : Choice where
  names := ["auto", "manual", "manual_only"]

def startup : Choice where
  names := ["initialize", "system", "services", "application", "once"]

def state : Choice where
  names := ["startup", "started", "stopped", "unknown", "error"]

def appArmor : Choice where
  names := ["default", "disable", "profile"]

def cpuArch : Choice where
  names := ["armhf", "armv7", "aarch64", "i386", "amd64"]

def capability : Choice where
  names := ["BPF", "CHECKPOINT_RESTORE", "DAC_READ_SEARCH", "IPC_LOCK", "NET_ADMIN", "NET_RAW",
    "PERFMON", "SYS_ADMIN", "SYS_MODULE", "SYS_NICE", "SYS_PTRACE", "SYS_RAWIO", "SYS_RESOURCE",
    "SYS_TIME"]

def role : Choice where
  names := ["default", "homeassistant", "backup", "manager", "admin"]

def baseFields : Slots :=
  .ofList [must "detached" .bool, must "advanced" .bool, must "available" .bool,
    must "build" .bool, must "description" .text, may "homeassistant" .text, must "icon" .bool,
    must "logo" .bool, must "name" .text, must "repository" .text, must "slug" .text,
    must "stage" (.choice stage), must "update_available" .bool, may "url" .text,
    must "version_latest" .text, may "version" .text]

def base : Shape :=
  .record baseFields .nil

def installedFields : Slots :=
  .ofList [must "state" (.choice state)]

def installed : Shape :=
  .record installedFields (.record baseFields .nil .nil)

def detailsFields : Slots :=
  .ofList [must "apparmor" (.choice appArmor), must "arch" (.list (.lenient cpuArch)),
    must "audio" .bool, must "auth_api" .bool, must "changelog" .bool, must "docker_api" .bool,
    must "documentation" .bool, must "full_access" .bool, must "homeassistant_api" .bool,
    must "host_network" .bool, must "host_pid" .bool, must "ingress" .bool,
    may "long_description" .text, must "machine" (.list .text),
    must "privileged" (.list (.lenient capability)), must "rating" .int64, must "signed" .bool,
    must "stdin" .bool, must "hassio_api" .bool, must "hassio_role" (.choice role),
    must "translations" .object]

def details : Shape :=
  .record detailsFields .nil

def installedComplete : Shape :=
  .record (.ofList [must "hostname" .text, must "dns" (.list .text), must "protected" .bool,
    must "boot" (.choice boot), must "boot_config" (.choice bootConfig), must "options" .object,
    may "schema" (.list .json), may "network" (.dict (.nullable .port)),
    may "network_description" (.dict .text), must "host_ipc" .bool, must "host_uts" .bool,
    must "host_dbus" .bool, must "kernel_modules" .bool, must "devicetree" .bool,
    must "udev" .bool, must "gpio" .bool, must "usb" .bool, must "uart" .bool,
    must "devices" (.list .text), must "video" .bool, may "audio_input" .text,
    may "audio_output" .text, must "startup" (.choice startup), must "services" (.list .text),
    must "discovery" (.list .text), may "ingress_entry" .text, may "ingress_url" .text,
    may "ingress_port" .port, may "ingress_panel" .bool, may "watchdog" .bool,
    must "auto_update" .bool, must "ip_address" .ipv4, must "system_managed" .bool,
    may "system_managed_config_entry" .text])
    (.record installedFields (.record baseFields .nil .nil) (.record detailsFields .nil .nil))

def list : Shape :=
  .plain [must "addons" (.list installed)]

def options : Shape :=
  .plain [field "options" .object, field "boot" (.choice boot), field "auto_update" .bool,
    field "network" (.dict (.nullable .port)), field "audio_input" .text,
    field "audio_output" .text, field "ingress_panel" .bool, field "watchdog" .bool]

def configCheck : Shape :=
  .plain [must "message" .text, must "valid" .bool, may "pwned" .bool]

def securityOptions : Shape :=
  .plain [field "protected" .bool]

def uninstallOptions : Shape :=
  .plain [field "remove_config" .bool]

end Addons

namespace Store

def addonFields : Slots :=
  .ofList [must "installed" .bool]

def addon : Shape :=
  .record addonFields (.record Addons.baseFields .nil .nil)

def addonComplete : Shape :=
  .record (.ofList [])
    (.record addonFields (.record Addons.baseFields .nil .nil) (.record Addons.detailsFields .nil .nil))

def repository : Shape :=
  .plain [must "slug" .text, must "name" .text, must "source" .text, may "url" .text,
    may "maintainer" .text]

def info : Shape :=
  .plain [must "addons" (.list addon), must "repositories" (.list repository)]

def addons : Shape :=
  .plain [must "addons" (.list addon)]

def installOptions : Shape :=
  .plain [field "background" .bool]

def updateOptions : Shape :=
  .plain [field "backup" .bool, field "background" .bool]

def newRepository : Shape :=
  .plain [must "repository" .text]

end Store

end SupervisorApi
