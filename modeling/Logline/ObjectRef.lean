import Logline.Value
/-!
# References to named objects

An object is referred to by its name and, where it has one, its namespace. As a value it writes itself
quoted, `"namespace/name"`; it can also stand for a JSON object that keeps the two apart.
-/

namespace Logline

/-- A reference to a named object. Objects outside any namespace have an empty one. -/
structure ObjectRef where
  name : String
  space : String
  deriving DecidableEq, Repr

namespace ObjectRef

/-- The reference as a text. -/
def text (r : ObjectRef) : String :=
  if r.space.isEmpty then r.name else r.space ++ "/" ++ r.name

/-- What the reference writes into a line. -/
def hook (r : ObjectRef) : WriteHook := { written := Text.quoted r.text }

/-- The reference as a JSON object, without an empty namespace. -/
def toJson (r : ObjectRef) : Json :=
  if r.space.isEmpty then .object [("name", .string r.name)]
  else .object [("name", .string r.name), ("namespace", .string r.space)]

/-- The reference as a value. -/
def toValue (r : ObjectRef) : Value := .written r.hook

/-- The reference as a value that stands for its JSON object. -/
def toMarshal (r : ObjectRef) : Value := .marshal none none (.json r.toJson)

/-- The reference for diagnostics. -/
def inspect (r : ObjectRef) : String :=
  Text.inspectRecord "ObjectRef"
    [("name", Text.inspect r.name), ("namespace", Text.inspect r.space)]

end ObjectRef

end Logline
