import Overlay.Network.Request
import Overlay.Url.Basic

/-!
# Requests over HTTP

The address of a path under a base, and the requests that cannot even be sent: those to an address
that is no URL, or whose scheme is not that of HTTP.
-/

namespace Overlay.Http

open Url

/-- The base of all addresses: the whole text of a URL without the slashes at its end. -/
def base (api : Url) : String :=
  String.ofList (api.text.toList.reverse.dropWhile (· = '/')).reverse

/-- The address of a path. -/
def url (api : Url) (path : String) : String := base api ++ path

/-- Whether requests can be sent to a scheme. -/
def isHttp (scheme : String) : Bool := scheme == "http" || scheme == "https"

/-- Whether a text can be the method of a request. -/
def isMethod (s : String) : Bool :=
  s ≠ "" && s.toList.all fun c => c.isAlphanum || "!#$%&'*+-.^_\x60|~".toList.contains c

/-- Whether a media type can stand in the head of a request. -/
def isHeaderValue (s : String) : Bool :=
  s.toList.all fun c => c = '\t' ∨ (0x20 ≤ c.toNat ∧ c.toNat ≠ 0x7F)

/-- Whether bytes written behind percent signs are those of a text. -/
def isDecodable (cs : List Char) : Bool :=
  (String.fromUTF8? ⟨(percentDecode cs).toArray⟩).isSome

/-- The address that a request is sent to: user name and password go into its head instead. -/
def withoutUser (u : Url) : Url :=
  let (name, password) := cut (· == ':') (u.userinfo.toList.filter (· ≠ '@'))
  if isDecodable name ∧ (name ≠ [] ∨ isDecodable password) then { u with userinfo := "" } else u

/-- Why a request to an address that HTTP does not reach is not sent; none if it could be. -/
def refusal [Reader] (address : String) (mediaType : Option String) : Option String :=
  match Url.parse address with
  | .error _ => some "builder error"
  | .ok u =>
    if u.hasHost ∧ !(mediaType.all isHeaderValue) then some "builder error"
    else if isHttp u.scheme then none
    else some ("builder error for url (" ++ (withoutUser u).text ++ ")")

/-- The interface behind a base that HTTP does not reach. -/
def unreachable [Reader] (api : Url) : Peer Unit where
  send q _ :=
    let address := url api q.path
    (.failure ((refusal address q.mediaType).getD ""), ())
  url := url api
  now _ := .zero

end Overlay.Http
