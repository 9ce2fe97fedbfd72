import SupervisorApi.Time.Duration

set_option autoImplicit false

namespace SupervisorApi

namespace Transport

inductive Trust where
  | verified
  | anything
  deriving DecidableEq, Repr

structure Settings where
  tls : Option Trust
  http2Only : Bool
  poolIdleTimeout : Option Duration
  poolMaxIdlePerHost : Nat
  acceptInvalidCerts : Bool

namespace Settings

def standard : Settings where
  tls := none
  http2Only := false
  poolIdleTimeout := some (.ofSeconds 90)
  poolMaxIdlePerHost := 32
  acceptInvalidCerts := false

def trust (s : Settings) : Trust :=
  if s.acceptInvalidCerts then .anything else s.tls.getD .verified

def describe (s : Settings) : String :=
  "HyperTransportBuilder \x7b tls_config: " ++ toString s.tls.isSome
    ++ ", http2_only: " ++ toString s.http2Only
    ++ ", pool_idle_timeout: " ++ Duration.optionText s.poolIdleTimeout
    ++ ", pool_max_idle_per_host: " ++ toString s.poolMaxIdlePerHost
    ++ ", danger_accept_invalid_certs: " ++ toString s.acceptInvalidCerts ++ " \x7d"

end Settings

end Transport

structure Transport where
  http2Only : Bool
  trust : Transport.Trust
  deriving DecidableEq, Repr

namespace Transport

def Settings.build (s : Settings) : Transport :=
  ⟨s.http2Only, s.trust⟩

def standard : Transport :=
  Settings.standard.build

def describe (t : Transport) : String :=
  "HyperTransport \x7b http2_only: " ++ toString t.http2Only ++ ", .. \x7d"

end Transport

end SupervisorApi
