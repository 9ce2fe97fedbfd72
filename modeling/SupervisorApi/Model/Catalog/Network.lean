import SupervisorApi.Model.Slots

set_option autoImplicit false

namespace SupervisorApi

open Slots (must may sparse field)

namespace Network

def interfaceType : Choice where
  names := ["ethernet", "wireless", "vlan"]

def method : Choice where
  names := ["disabled", "static", "auto"]

def wifiMode : Choice where
  names := ["infrastructure", "mesh", "adhoc", "ap"]

def wifiAuth : Choice where
  names := ["open", "wep", "wpa-psk"]

def ipBaseFields : Slots :=
  .ofList [must "method" (.choice method), may "ready" .bool]

def ipBase : Shape :=
  .record ipBaseFields .nil

def ipv4 : Shape :=
  .record (.ofList [must "address" (.list .text), must "nameservers" (.list .ipv4),
    may "gateway" .ipv4])
    (.record ipBaseFields .nil .nil)

def ipv6 : Shape :=
  .record (.ofList [must "address" (.list .text), must "nameservers" (.list .ipv6),
    may "gateway" .ipv6])
    (.record ipBaseFields .nil .nil)

def wifi : Shape :=
  .plain [must "mode" (.choice wifiMode), must "auth" (.choice wifiAuth), must "ssid" .text,
    may "signal" .int64]

def vlan : Shape :=
  .plain [must "id" .port, must "interface" .text]

def interface : Shape :=
  .plain [must "interface" .text, must "type" (.choice interfaceType), must "enabled" .bool,
    must "connected" .bool, must "primary" .bool, must "mac" .text, must "ipv4" ipv4,
    must "ipv6" ipv6, may "wifi" wifi, may "vlan" vlan]

def docker : Shape :=
  .plain [must "interface" .text, must "address" .text, must "gateway" .ipv4, must "dns" .ipv4]

def info : Shape :=
  .plain [must "interfaces" (.list interface), must "docker" docker, may "host_internet" .bool,
    must "supervisor_internet" .bool]

def ipv4Config : Shape :=
  .plain [field "address" (.list .text), field "method" (.choice method), field "gateway" .ipv4,
    field "nameservers" (.list .ipv4)]

def ipv6Config : Shape :=
  .plain [field "address" (.list .text), field "method" (.choice method), field "gateway" .ipv6,
    field "nameservers" (.list .ipv6)]

def wifiConfig : Shape :=
  .plain [field "mode" (.choice wifiMode), field "method" (.choice wifiAuth), field "ssid" .text,
    field "psk" .text]

def interfaceConfig : Shape :=
  .plain [field "ipv4" ipv4Config, field "ipv6" ipv6Config, field "wifi" wifiConfig,
    field "enabled" .bool]

def accessPoint : Shape :=
  .plain [must "mode" (.choice wifiMode), must "ssid" .text, must "frequency" .int64,
    must "signal" .int64, must "mac" .text]

def accessPoints : Shape :=
  .plain [must "accesspoints" (.list accessPoint)]

def vlanConfig : Shape :=
  .plain [field "ipv4" ipv4Config, field "ipv6" ipv6Config]

end Network

end SupervisorApi
