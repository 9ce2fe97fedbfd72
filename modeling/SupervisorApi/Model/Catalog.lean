import SupervisorApi.Model.Catalog.System
import SupervisorApi.Model.Catalog.Resolution
import SupervisorApi.Model.Catalog.Machine
import SupervisorApi.Model.Catalog.Network
import SupervisorApi.Model.Catalog.Storage
import SupervisorApi.Model.Catalog.Addons

set_option autoImplicit false

namespace SupervisorApi

namespace Catalog

def models : List (String × Shape) :=
  [("RootInfo", System.info),
    ("AvailableUpdate", System.update),
    ("AvailableUpdates", System.updates),
    ("ContainerStats", System.containerStats),
    ("SupervisorInfo", System.supervisorInfo),
    ("SupervisorUpdateOptions", System.supervisorUpdate),
    ("SupervisorOptions", System.supervisorOptions),
    ("HomeAssistantInfo", Core.info),
    ("HomeAssistantOptions", Core.options),
    ("HomeAssistantUpdateOptions", Core.updateOptions),
    ("HomeAssistantRestartOptions", Core.restartOptions),
    ("HomeAssistantRebuildOptions", Core.rebuildOptions),
    ("HomeAssistantStopOptions", Core.stopOptions),
    ("JobError", Jobs.error),
    ("Job", Jobs.job),
    ("JobsInfo", Jobs.info),
    ("JobsOptions", Jobs.options),
    ("Suggestion", Resolution.suggestion),
    ("Issue", Resolution.issue),
    ("Check", Resolution.check),
    ("SuggestionsList", Resolution.suggestions),
    ("ResolutionInfo", Resolution.info),
    ("CheckOptions", Resolution.checkOptions),
    ("DiscoveryConfig", Discovery.config),
    ("Discovery", Discovery.message),
    ("DiscoveryList", Discovery.messages),
    ("SetDiscovery", Discovery.added),
    ("HostInfo", Host.info),
    ("ShutdownOptions", Host.shutdownOptions),
    ("RebootOptions", Host.rebootOptions),
    ("HostOptions", Host.options),
    ("Service", Host.service),
    ("ServiceList", Host.services),
    ("BootSlot", OperatingSystem.bootSlot),
    ("OSInfo", OperatingSystem.info),
    ("OSUpdate", OperatingSystem.update),
    ("MigrateDataOptions", OperatingSystem.migration),
    ("DataDisk", OperatingSystem.dataDisk),
    ("DataDiskList", OperatingSystem.dataDisks),
    ("SetBootSlotOptions", OperatingSystem.bootSlotOptions),
    ("GreenInfo", OperatingSystem.greenInfo),
    ("GreenOptions", OperatingSystem.greenOptions),
    ("YellowInfo", OperatingSystem.yellowInfo),
    ("YellowOptions", OperatingSystem.yellowOptions),
    ("IpBase", Network.ipBase),
    ("IPv4", Network.ipv4),
    ("IPv6", Network.ipv6),
    ("Wifi", Network.wifi),
    ("Vlan", Network.vlan),
    ("NetworkInterface", Network.interface),
    ("DockerNetwork", Network.docker),
    ("NetworkInfo", Network.info),
    ("IPv4Config", Network.ipv4Config),
    ("IPv6Config", Network.ipv6Config),
    ("WifiConfig", Network.wifiConfig),
    ("NetworkInterfaceConfig", Network.interfaceConfig),
    ("AccessPoint", Network.accessPoint),
    ("AccessPointList", Network.accessPoints),
    ("VlanConfig", Network.vlanConfig),
    ("MountBase", Mounts.base),
    ("MountStatus", Mounts.status),
    ("CifsMountResponse", Mounts.cifsMount),
    ("NfsMountResponse", Mounts.nfsMount),
    ("MountResponse", Mounts.mount),
    ("CifsMountRequest", Mounts.cifsRequest),
    ("NfsMountRequest", Mounts.nfsRequest),
    ("MountRequest", Mounts.request),
    ("MountsInfo", Mounts.info),
    ("MountsOptions", Mounts.options),
    ("BackupContent", Backups.content),
    ("BackupBaseFields", Backups.base),
    ("Backup", Backups.backup),
    ("BackupAddon", Backups.addon),
    ("BackupComplete", Backups.complete),
    ("BackupList", Backups.backups),
    ("BackupsInfo", Backups.info),
    ("BackupsOptions", Backups.options),
    ("FreezeOptions", Backups.freezeOptions),
    ("PartialSelection", Backups.selection),
    ("FullBackupOptions", Backups.fullBackup),
    ("PartialBackupOptions", Backups.partialBackup),
    ("FullRestoreOptions", Backups.fullRestore),
    ("PartialRestoreOptions", Backups.partialRestore),
    ("BackupJob", Backups.started),
    ("NewBackup", Backups.created),
    ("UploadedBackup", Backups.uploaded),
    ("RemoveBackupOptions", Backups.removal),
    ("AddonBase", Addons.base),
    ("InstalledAddon", Addons.installed),
    ("AddonInfoFields", Addons.details),
    ("InstalledAddonComplete", Addons.installedComplete),
    ("AddonsList", Addons.list),
    ("AddonsOptions", Addons.options),
    ("AddonsConfigValidate", Addons.configCheck),
    ("AddonsSecurityOptions", Addons.securityOptions),
    ("AddonsUninstall", Addons.uninstallOptions),
    ("StoreAddon", Store.addon),
    ("StoreAddonComplete", Store.addonComplete),
    ("Repository", Store.repository),
    ("StoreInfo", Store.info),
    ("StoreAddonsList", Store.addons),
    ("StoreAddonInstall", Store.installOptions),
    ("StoreAddonUpdate", Store.updateOptions),
    ("StoreAddRepository", Store.newRepository)]

def choices : List (String × Choice) :=
  [("HostFeature", System.hostFeature),
    ("SupervisorState", System.state),
    ("UpdateChannel", System.channel),
    ("LogLevel", System.logLevel),
    ("UpdateType", System.updateType),
    ("JobCondition", Jobs.condition),
    ("SuggestionType", Resolution.suggestionType),
    ("IssueType", Resolution.issueType),
    ("UnsupportedReason", Resolution.unsupportedReason),
    ("UnhealthyReason", Resolution.unhealthyReason),
    ("CheckType", Resolution.checkType),
    ("ContextType", Resolution.context),
    ("ServiceState", Host.serviceState),
    ("RaucState", OperatingSystem.slotStatus),
    ("BootSlotName", OperatingSystem.slotName),
    ("InterfaceType", Network.interfaceType),
    ("InterfaceMethod", Network.method),
    ("WifiMode", Network.wifiMode),
    ("AuthMethod", Network.wifiAuth),
    ("MountUsage", Mounts.usage),
    ("MountState", Mounts.state),
    ("MountCifsVersion", Mounts.cifsVersion),
    ("BackupType", Backups.kind),
    ("Folder", folder),
    ("AddonStage", Addons.stage),
    ("AddonBoot", Addons.boot),
    ("AddonBootConfig", Addons.bootConfig),
    ("AddonStartup", Addons.startup),
    ("AddonState", Addons.state),
    ("AppArmor", Addons.appArmor),
    ("CpuArch", Addons.cpuArch),
    ("Capability", Addons.capability),
    ("SupervisorRole", Addons.role)]

def model? (name : String) : Option Shape :=
  models.lookup name

def choice? (name : String) : Option Choice :=
  choices.lookup name

end Catalog

end SupervisorApi
