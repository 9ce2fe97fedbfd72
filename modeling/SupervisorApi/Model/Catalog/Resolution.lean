import SupervisorApi.Model.Slots

set_option autoImplicit false

namespace SupervisorApi

open Slots (must may sparse field)

namespace Resolution

def suggestionType : Choice where
  names := ["adopt_data_disk", "clear_full_backup", "create_full_backup", "execute_integrity",
    "execute_reboot", "execute_rebuild", "execute_reload", "execute_remove", "execute_repair",
    "execute_reset", "execute_stop", "execute_update", "registry_login", "rename_data_disk"]

def issueType : Choice where
  names := ["corrupt_docker", "corrupt_repository", "corrupt_filesystem",
    "detached_addon_missing", "detached_addon_removed", "disabled_data_disk", "dns_loop",
    "dns_server_failed", "dns_server_ipv6_error", "docker_config", "docker_ratelimit",
    "fatal_error", "free_space", "ipv4_connection_problem", "missing_image", "mount_failed",
    "multiple_data_disks", "no_current_backup", "pwned", "reboot_required", "security", "trust",
    "update_failed", "update_rollback"]

def unsupportedReason : Choice where
  names := ["apparmor", "cgroup_version", "connectivity_check", "content_trust", "dbus",
    "dns_server", "docker_configuration", "docker_version", "job_conditions", "lxc",
    "network_manager", "os", "os_agent", "privileged", "restart_policy", "software",
    "source_mods", "supervisor_version", "systemd", "systemd_journal", "systemd_resolved",
    "virtualization_image"]

def unhealthyReason : Choice where
  names := ["docker", "oserror_bad_message", "privileged", "supervisor", "setup", "untrusted"]

def checkType : Choice where
  names := ["addon_pwned", "backups", "core_security", "detached_addon_missing",
    "detached_addon_removed", "disabled_data_disk", "dns_server_ipv6", "dns_server",
    "docker_config", "free_space", "multiple_data_disks", "network_interface_ipv4",
    "supervisor_trust"]

def context : Choice where
  names := ["addon", "core", "dns_server", "mount", "os", "plugin", "supervisor", "store",
    "system"]

def suggestion : Shape :=
  .plain [must "type" (.lenient suggestionType), must "context" (.choice context),
    may "reference" .text, must "uuid" .uuid, must "auto" .bool]

def issue : Shape :=
  .plain [must "type" (.lenient issueType), must "context" (.choice context),
    may "reference" .text, must "uuid" .uuid]

def check : Shape :=
  .plain [must "enabled" .bool, must "slug" (.lenient checkType)]

def suggestionsFields : Slots :=
  .ofList [must "suggestions" (.list suggestion)]

def suggestions : Shape :=
  .record suggestionsFields .nil

def info : Shape :=
  .record (.ofList [must "unsupported" (.list (.lenient unsupportedReason)),
    must "unhealthy" (.list (.lenient unhealthyReason)), must "issues" (.list issue),
    must "checks" (.list check)])
    (.record suggestionsFields .nil .nil)

def checkOptions : Shape :=
  .plain [field "enabled" .bool]

end Resolution

namespace Discovery

def config : Shape :=
  .plain [must "service" .text, must "config" .object]

def message : Shape :=
  .plain [must "addon" .text, must "service" .text, must "uuid" .uuid, must "config" .object]

def messages : Shape :=
  .plain [must "discovery" (.list message)]

def added : Shape :=
  .plain [must "uuid" .uuid]

end Discovery

end SupervisorApi
