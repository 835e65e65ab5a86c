import Overlay.Cluster.Key

/-!
# Errors

What can go wrong while an object is brought into the network. An error either passes by itself, so
that the object is tried again later, or stops the controller.
-/

namespace Overlay

/-- What went wrong. -/
inductive Error where
  /-- A text is no client key. -/
  | invalidKey (kind clientKey reason : String)
  /-- An object needs another one that is not there yet. -/
  | dependencyNotReady (key : Key) (reason : String)
  /-- An object holds something that can never be translated. -/
  | malformedInput (key : Key) (reason : String)
  /-- A resource was to be created in a parent that does not exist. -/
  | parentNotReady (resource parent url : String)
  /-- The network answered a request with a status that means nothing here. -/
  | unexpectedStatus (resource method url : String) (status : Nat) (request response : String)
  /-- A kind of resource has no path for an operation. -/
  | unsupportedOperation (kind operation : String)
  /-- A request got no answer. -/
  | transport (method url reason : String)
  /-- A resource has no body. -/
  | serialization (resource reason : String)
  /-- The connection to the network cannot be set up. -/
  | invalidConfig (reason : String)
deriving DecidableEq, Repr

namespace Error

/-- Whether the same attempt can succeed later: something is not there yet, or was not reached. -/
def isRetryable : Error → Bool
  | dependencyNotReady .. | parentNotReady .. | transport .. => true
  | invalidKey .. | malformedInput .. | unexpectedStatus .. | unsupportedOperation ..
  | serialization .. | invalidConfig .. => false

/-- Whether the error stops the controller. -/
def isFatal (e : Error) : Bool := !e.isRetryable

/-- One word for the error, as it labels metrics. -/
def reason : Error → String
  | invalidKey .. => "InvalidKey"
  | dependencyNotReady .. => "DependencyNotReady"
  | malformedInput .. => "MalformedInput"
  | parentNotReady .. => "ParentNotReady"
  | unexpectedStatus .. => "UnexpectedStatus"
  | unsupportedOperation .. => "UnsupportedOperation"
  | transport .. => "TransportError"
  | serialization .. => "SerializeError"
  | invalidConfig .. => "InvalidConfig"

/-- The text of the error. -/
def message : Error → String
  | invalidKey kind clientKey reason =>
    "invalid " ++ kind ++ " key '" ++ clientKey ++ "': " ++ reason
  | dependencyNotReady key reason => key.text ++ ": dependency not ready: " ++ reason
  | malformedInput key reason => key.text ++ ": malformed input: " ++ reason
  | parentNotReady resource parent url =>
    "parent " ++ parent ++ " of " ++ resource ++ " not found (HTTP 404 on " ++ url ++ ")"
  | unexpectedStatus resource method url status request response =>
    method ++ " " ++ url ++ " for " ++ resource ++ " returned " ++ toString status
      ++ ": request=" ++ request ++ " response=" ++ response
  | unsupportedOperation kind operation => kind ++ " does not support " ++ operation
  | transport method url reason => method ++ " " ++ url ++ " failed: " ++ reason
  | serialization resource reason => "failed to serialize " ++ resource ++ ": " ++ reason
  | invalidConfig reason => "invalid MidoNet client configuration: " ++ reason

end Error

end Overlay
