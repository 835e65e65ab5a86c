import Overlay.Text.Case
import Overlay.Uuid.Basic

/-!
# Keys of cluster objects

A key names an object of the cluster, or a part of one that is translated on its own: its kind, its
namespace (empty for objects of the whole cluster) and its name. A client key is the flat text of
the last two. The translation name, which carries a version, is what identifiers are computed from.
-/

namespace Overlay

/-- The kind, namespace and name of an object or of a part of one. -/
structure Key where
  /-- The kind of the object. -/
  kind : String
  /-- The namespace, empty for an object of the whole cluster. -/
  space : String
  /-- The name; the name of a part begins with that of its object. -/
  name : String
deriving DecidableEq, Repr, Inhabited

namespace Key

/-! ## Order -/

/-- Keys are ordered by kind, then namespace, then name. -/
def order : Key → Key → Ordering :=
  compareLex (compareOn kind) (compareLex (compareOn space) (compareOn name))

instance : Ord Key := ⟨order⟩

instance : Std.TransOrd Key := inferInstanceAs (Std.TransCmp (compareLex _ (compareLex _ _)))

instance : Std.LawfulEqOrd Key where
  eq_of_compare {a b} h := by
    have parts : order a b = .eq := h
    simp only [order, compareLex, compareOn, Ordering.then_eq_eq] at parts
    obtain ⟨hk, hs, hn⟩ := parts
    cases a; cases b
    exact congr (congr (congrArg Key.mk (Std.LawfulEqCmp.eq_of_compare hk))
      (Std.LawfulEqCmp.eq_of_compare hs)) (Std.LawfulEqCmp.eq_of_compare hn)

/-! ## Client keys -/

/-- Why a text is no client key. -/
inductive ParseError where
  /-- There is more than one slash. -/
  | parts
  /-- The name is empty. -/
  | emptyName
deriving DecidableEq, Repr

/-- The words for why a text is no client key. -/
def ParseError.message : ParseError → String
  | .parts => "expected 'name' or 'namespace/name'"
  | .emptyName => "empty name"

/-- Reads a client key: a name, or a namespace and a name with a slash between them. -/
def ofClientKey (kind clientKey : String) : Except ParseError Key :=
  match clientKey.toList.splitOn '/' with
  | [name] => if name = [] then .error .emptyName else .ok ⟨kind, "", String.ofList name⟩
  | [space, name] =>
    if name = [] then .error .emptyName else .ok ⟨kind, String.ofList space, String.ofList name⟩
  | _ => .error .parts

/-- The client key: the name, behind the namespace if there is one. -/
def clientKey (k : Key) : String := if k.space = "" then k.name else k.space ++ "/" ++ k.name

/-- The key of a part of an object: `suffix` follows the object's name. -/
def sub (k : Key) (kind suffix : String) : Key := ⟨kind, k.space, k.name ++ "/" ++ suffix⟩

/-- The text of a key: its kind and its client key. -/
def text (k : Key) : String := k.kind ++ "/" ++ k.clientKey

instance : ToString Key := ⟨text⟩

/-! ## Translation names -/

/-- The version of the translation; another version gives every object another identifier. -/
def translationVersion : String := "1"

/-- The name that identifiers are computed from: the kind in lowercase, the version and the client
key. -/
def translationName (k : Key) : String :=
  Text.lowercase k.kind ++ "." ++ translationVersion ++ "." ++ k.clientKey

end Key

end Overlay
