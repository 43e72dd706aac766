/-!
# Paths

A path is a text, and its segments stand between its slashes. Two paths are compared by their parts:
segments that stay in the same directory do not count.

Main statement: `pathEndsWith_self`.
-/

namespace Logline

/-- The segments of a path, between its slashes. -/
def pathSegments (path : String) : List String := path.splitOn "/"

/-- Whether a segment of a path stays in the directory it is met in. -/
def staysPut (segment : String) : Bool := segment == "" || segment == "."

/-- The parts of a path: its root if it has one, then the names. Empty parts do not count, nor does a dot
except at the start. -/
def pathParts (path : String) : List String :=
  match pathSegments path with
  | [] => []
  | [""] => []
  | "" :: rest => "/" :: rest.filter fun part => !staysPut part
  | first :: rest => first :: rest.filter fun part => !staysPut part

/-- Whether a path ends with another one, part by part. -/
def pathEndsWith (path suffix : String) : Bool := (pathParts suffix).isSuffixOf (pathParts path)

theorem pathEndsWith_self (path : String) : pathEndsWith path path = true := by
  simp [pathEndsWith]

end Logline
