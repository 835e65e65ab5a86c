import Overlay.Cluster.Key
import Overlay.Hash.Sha256
import Overlay.Net.Mac

/-!
# Derived identifiers

No identifier is stored or assigned by the network. Each is computed from a name, so a controller
that starts anew finds again what an earlier one made.
-/

namespace Overlay.Identity

/-- The namespace of identifiers computed from translation names. -/
def clusterSpace : Uuid := ⟨0xCAC60164F74C404AAB393C1320124A17#128⟩

/-- The namespace of identifiers computed from tenant names. -/
def tenantSpace : Uuid := ⟨0x3978567E91C4465CA0D167575F6B4C7F#128⟩

/-- The identifier of a translation name. -/
def ofName (name : String) : Uuid := Uuid.ofName clusterSpace name

/-- The identifier of a tenant. -/
def ofTenant (tenant : String) : Uuid := Uuid.ofName tenantSpace tenant

/-- The identifier of something that belongs to `parent`, told apart by a text. -/
def sub (parent : Uuid) (discriminator : String) : Uuid := Uuid.ofName parent discriminator

/-- The Ethernet address for a name: a fixed vendor prefix and three bytes of a digest. -/
def mac (name : String) : Mac :=
  match Hash.sha256 name.toUTF8.toList with
  | a :: b :: c :: _ => ⟨0xac, 0xca, 0xba, a, b, c⟩
  | _ => ⟨0xac, 0xca, 0xba, 0, 0, 0⟩

/-- The most characters an interface name can have. -/
def interfaceNameLimit : Nat := 15

/-- The interface name for a name: a fixed beginning and as many digits of its identifier as fit. -/
def interfaceName (name : String) : String :=
  "mido" ++ String.ofList ((ofName name).digits.take (interfaceNameLimit - 4))

end Identity

/-- The identifier of the object that a key names. -/
def Key.id (k : Key) : Uuid := Identity.ofName k.translationName

end Overlay
