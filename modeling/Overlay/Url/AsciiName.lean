import Overlay.Url.Host

/-!
# Names in ASCII

The names that need no tables: those in ASCII none of whose labels stands for one in another script.
Their capitals are made small, and every other name is refused.
-/

namespace Overlay.Url

/-- A name in small letters, if that is all it takes to bring it into ASCII. A byte that is not of
ASCII is taken for a character that no plain name has. -/
def asciiName (bytes : List UInt8) : Option (List Char) :=
  let name := bytes.map fun b => (Char.ofUInt8 b).toLower
  if IsPlainName name then some name else none

/-- A circumflex is left as it is in a path. -/
instance : Reader := ⟨asciiName, false⟩

end Overlay.Url
