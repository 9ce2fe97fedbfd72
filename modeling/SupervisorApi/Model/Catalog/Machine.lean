import SupervisorApi.Model.Slots
import SupervisorApi.Model.Catalog.System

set_option autoImplicit false

namespace SupervisorApi

open Slots (must may sparse field)

namespace Host

def serviceState : Choice where
  names := ["active", "reloading", "inactive", "failed", "activating", "deactivating",
    "maintenance"]

def info : Shape :=
  .plain [may "agent_version" .text, may "apparmor_version" .text, may "chassis" .text,
    may "virtualization" .text, may "cpe" .text, may "deployment" .text, must "disk_free" .real,
    must "disk_total" .real, must "disk_used" .real, must "disk_life_time" .real,
    must "features" (.list (.lenient System.hostFeature)), may "hostname" .text,
    may "llmnr_hostname" .text, may "kernel" .text, may "operating_system" .text,
    may "timezone" .text, may "dt_utc" .timestamp, may "dt_synchronized" .bool,
    may "use_ntp" .bool, may "startup_time" .real, may "boot_timestamp" .int64,
    may "broadcast_llmnr" .bool, may "broadcast_mdns" .bool]

def shutdownOptions : Shape :=
  .plain [must "force" .bool]

def rebootOptions : Shape :=
  .plain [must "force" .bool]

def options : Shape :=
  .plain [must "hostname" .text]

def service : Shape :=
  .plain [must "name" .text, must "description" .text, must "state" (.lenient serviceState)]

def services : Shape :=
  .plain [must "services" (.list service)]

end Host

namespace OperatingSystem

def slotStatus : Choice where
  names := ["good", "bad", "active"]

def slotName : Choice where
  names := ["A", "B"]

def bootSlot : Shape :=
  .plain [must "state" .text, may "status" (.choice slotStatus), may "version" .text]

def info : Shape :=
  .plain [may "version" .text, may "version_latest" .text, must "update_available" .bool,
    may "board" .text, may "boot" .text, may "data_disk" .text,
    must "boot_slots" (.dict bootSlot)]

def update : Shape :=
  .plain [field "version" .text]

def migration : Shape :=
  .plain [must "device" .text]

def dataDisk : Shape :=
  .plain [must "name" .text, must "vendor" .text, must "model" .text, must "serial" .text,
    must "size" .int64, must "id" .text, must "dev_path" .text]

def dataDisks : Shape :=
  .plain [must "disks" (.list dataDisk)]

def bootSlotOptions : Shape :=
  .plain [must "boot_slot" (.choice slotName)]

def greenInfo : Shape :=
  .plain [must "activity_led" .bool, must "power_led" .bool, must "system_health_led" .bool]

def greenOptions : Shape :=
  .plain [field "activity_led" .bool, field "power_led" .bool, field "system_health_led" .bool]

def yellowInfo : Shape :=
  .plain [must "disk_led" .bool, must "heartbeat_led" .bool, must "power_led" .bool]

def yellowOptions : Shape :=
  .plain [field "disk_led" .bool, field "heartbeat_led" .bool, field "power_led" .bool]

end OperatingSystem

end SupervisorApi
