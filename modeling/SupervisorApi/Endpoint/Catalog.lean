import SupervisorApi.Endpoint.Addons
import SupervisorApi.Endpoint.Machine
import SupervisorApi.Endpoint.Storage
import SupervisorApi.Endpoint.System

set_option autoImplicit false

namespace SupervisorApi

namespace Endpoint

def catalog : List (String × Endpoint) :=
  systemTable ++ machineTable ++ storageTable ++ addonTable

def find? (name : String) : Option Endpoint :=
  (catalog.find? fun row => row.1 = name).map Prod.snd

end Endpoint

end SupervisorApi
