import Logline.Decimal.Binary64
/-!
# JSON values

Numbers are integers or floating point numbers. An object keeps its members in the order of their names;
of two members with the same name the later one stays.

Main statement: `names_insertMember` (a member is added at its place, or replaces the one of its name).
-/

namespace Logline

/-- A JSON value. -/
inductive Json where
  | null
  | bool (b : Bool)
  | integer (i : Int)
  | float (x : Binary64)
  | string (s : String)
  | array (items : List Json)
  | object (members : List (String × Json))
  deriving Repr, Inhabited

namespace Json

/-- Members with one more, kept in the order of names. A member of the same name is replaced. -/
def insertMember (name : String) (value : Json) : List (String × Json) → List (String × Json)
  | [] => [(name, value)]
  | (n, v) :: rest =>
    if name < n then (name, value) :: (n, v) :: rest
    else if name = n then (name, value) :: rest
    else (n, v) :: insertMember name value rest

/-- The object with the given members, of which later ones replace earlier ones. -/
def ofMembers (members : List (String × Json)) : Json :=
  .object (members.foldl (fun acc m => insertMember m.1 m.2 acc) [])

theorem names_insertMember (name n : String) (value : Json) (members : List (String × Json)) :
    n ∈ (insertMember name value members).map Prod.fst ↔
      n = name ∨ n ∈ members.map Prod.fst := by
  induction members with
  | nil => simp [insertMember]
  | cons m rest ih =>
    simp only [insertMember]
    split
    · simp
    · split
      · next heq => simp [heq]
      · simp only [List.map_cons, List.mem_cons, ih]
        exact or_left_comm

end Json

end Logline
