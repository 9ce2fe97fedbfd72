import SupervisorApi.Endpoint.Basic

set_option autoImplicit false

namespace SupervisorApi

namespace Endpoint

def hostInfo : Endpoint :=
  fetch ["host", "info"] Host.info

def rebootHost : Endpoint :=
  sendWithin powerTimeout ["host", "reboot"] (.optional Host.rebootOptions)

def shutDownHost : Endpoint :=
  sendWithin powerTimeout ["host", "shutdown"] (.optional Host.shutdownOptions)

def reloadHost : Endpoint :=
  command ["host", "reload"]

def setHostOptions : Endpoint :=
  send ["host", "options"] (.model Host.options)

def hostServices : Endpoint :=
  fetchPart ["host", "services"] Host.services (.list Host.service) fun ((xs, ()), ()) => xs

def systemInfo : Endpoint :=
  fetch ["os", "info"] OperatingSystem.info

def updateSystem : Endpoint :=
  sendWithin .disabled ["os", "update"] (.optional OperatingSystem.update)

def syncConfig : Endpoint :=
  command ["os", "config", "sync"]

def migrateData : Endpoint :=
  send ["os", "datadisk", "move"] (.model OperatingSystem.migration)

def dataDisks : Endpoint :=
  fetchPart ["os", "datadisk", "list"] OperatingSystem.dataDisks (.list OperatingSystem.dataDisk)
    fun ((xs, ()), ()) => xs

def wipeData : Endpoint :=
  command ["os", "datadisk", "wipe"]

def setBootSlot : Endpoint :=
  send ["os", "boot-slot"] (.model OperatingSystem.bootSlotOptions)

def greenInfo : Endpoint :=
  fetch ["os", "boards", "green"] OperatingSystem.greenInfo

def setGreenOptions : Endpoint :=
  send ["os", "boards", "green"] (.changes OperatingSystem.greenOptions)

def yellowInfo : Endpoint :=
  fetch ["os", "boards", "yellow"] OperatingSystem.yellowInfo

def setYellowOptions : Endpoint :=
  send ["os", "boards", "yellow"] (.changes OperatingSystem.yellowOptions)

def networkInfo : Endpoint :=
  fetch ["network", "info"] Network.info

def reloadNetwork : Endpoint :=
  command ["network", "reload"]

def interfaceInfo : Endpoint :=
  fetch ["network", "interface", .given .interface, "info"] Network.interface

def updateInterface : Endpoint :=
  send ["network", "interface", .given .interface, "update"] (.changes Network.interfaceConfig)

def accessPoints : Endpoint :=
  fetchPart ["network", "interface", .given .interface, "accesspoints"] Network.accessPoints
    (.list Network.accessPoint) fun ((xs, ()), ()) => xs

def saveVlan : Endpoint :=
  send ["network", "interface", .given .interface, "vlan", .given .vlan]
    (.optionalChanges Network.vlanConfig)

def machineTable : List (String × Endpoint) :=
  [("host.info", hostInfo), ("host.reboot", rebootHost), ("host.shutdown", shutDownHost),
    ("host.reload", reloadHost), ("host.options", setHostOptions),
    ("host.services", hostServices), ("os.info", systemInfo), ("os.update", updateSystem),
    ("os.config_sync", syncConfig), ("os.migrate_data", migrateData),
    ("os.list_data_disks", dataDisks), ("os.wipe_data", wipeData),
    ("os.set_boot_slot", setBootSlot), ("os.green_info", greenInfo),
    ("os.green_options", setGreenOptions), ("os.yellow_info", yellowInfo),
    ("os.yellow_options", setYellowOptions), ("network.info", networkInfo),
    ("network.reload", reloadNetwork), ("network.interface_info", interfaceInfo),
    ("network.update_interface", updateInterface), ("network.access_points", accessPoints),
    ("network.save_vlan", saveVlan)]

end Endpoint

end SupervisorApi
