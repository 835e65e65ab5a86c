import Overlay.Translation.Endpoints
import Overlay.Translation.Pod

/-!
# Translators

A translator turns the objects of one kind into resources. Pods are the only objects whose
translation reads others: the nodes known at that time.
-/

namespace Overlay

/-- The translation of the objects of one kind. -/
structure Translator (α : Type) where
  kind : ClusterKind
  metadata : α → Metadata
  translate : Key → α → Translated Translation

namespace ClusterKind

/-- The translator of a kind. -/
def translator (s : Settings) (nodes : String → Option Node) :
    (kind : ClusterKind) → Translator kind.Object
  | node => ⟨node, Node.metadata, Node.translate s⟩
  | pod => ⟨pod, Pod.metadata, Pod.translate nodes⟩
  | service => ⟨service, Service.metadata, Service.translate s⟩
  | endpoints => ⟨endpoints, Endpoints.metadata, Endpoints.translate s⟩

end ClusterKind

/-- The translation of an object, or of none, which becomes nothing. -/
def Translator.convert {α : Type} (t : Translator α) (key : Key) :
    Option α → Except Error Translation
  | none => .ok .nothing
  | some object =>
    match t.translate key object with
    | .ok translation => .ok translation
    | .error obstacle => .error (obstacle.error key)

end Overlay
