import Overlay.Translation.Basic

/-!
# What the whole cluster shares

The tunnel zone that all hosts join and the chain that every packet to a service passes. Both are
created once, before any object is translated, since nodes and services refer to them.
-/

namespace Overlay

/-- The identifier of the tunnel zone of a tenant. -/
def tunnelZoneId (tenant : String) : Uuid :=
  Identity.sub (Identity.ofTenant tenant) "Default Tunnel Zone"

/-- The identifier of the chain with one jump for each port of a service. -/
def servicesChainId (clusterRouter : Uuid) : Uuid := Identity.sub clusterRouter "Services"

/-- The tunnel zone and the services chain. -/
def clusterResources (s : Settings) : List Resource :=
  [.tunnelZone { id := tunnelZoneId s.tenant, name := s.tenant, encapsulation := "vxlan" },
    .chain { id := servicesChainId s.clusterRouter, tenant := s.tenant, name := "KUBE-SERVICES" }]

end Overlay
