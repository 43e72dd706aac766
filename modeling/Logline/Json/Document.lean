import Logline.Json.Reader
/-!
# Reading JSON documents

Any JSON value is read from its text. Values may be nested up to a depth of 127. The reader is bounded by
the length of the text, since every step takes a character.
-/

namespace Logline.Json

/-- How deep values may be nested. -/
def depthLimit : Nat := 127

/-- A number as a JSON value. -/
def Number.toJson : Number → Json
  | .natural n => .integer n
  | .negative i => .integer i
  | .float x => .float x

mutual

/-- Reads a value. `fuel` bounds the steps, `depth` the nesting. -/
def readValue (fuel depth : Nat) (cs : List Char) : Except ReadError (Json × List Char) :=
  match fuel with
  | 0 => .error .malformed
  | fuel + 1 =>
    match skipBlanks cs with
    | [] => .error .truncated
    | 'n' :: rest => (readLiteral ['u', 'l', 'l'] rest).map fun r => (.null, r.2)
    | 't' :: rest => (readLiteral ['r', 'u', 'e'] rest).map fun r => (.bool true, r.2)
    | 'f' :: rest => (readLiteral ['a', 'l', 's', 'e'] rest).map fun r => (.bool false, r.2)
    | '"' :: rest => (readString rest).map fun r => (.string (String.ofList r.1), r.2)
    | '-' :: rest => (readNumber true rest).map fun r => (r.1.toJson, r.2)
    | '[' :: rest =>
      if depth = 0 then .error .malformed
      else match skipBlanks rest with
        | ']' :: rest => .ok (.array [], rest)
        | rest => (readItems fuel (depth - 1) rest).map fun r => (.array r.1, r.2)
    | '\x7b' :: rest =>
      if depth = 0 then .error .malformed
      else match skipBlanks rest with
        | '\x7d' :: rest => .ok (.object [], rest)
        | rest => (readMembers fuel (depth - 1) rest).map fun r => (ofMembers r.1, r.2)
    | c :: rest =>
      if c.isDigit then (readNumber false (c :: rest)).map fun r => (r.1.toJson, r.2)
      else .error .malformed

/-- Reads the items of an array that has some, and its end. -/
def readItems (fuel depth : Nat) (cs : List Char) : Except ReadError (List Json × List Char) :=
  match fuel with
  | 0 => .error .malformed
  | fuel + 1 =>
    match readValue fuel depth cs with
    | .error e => .error e
    | .ok (v, rest) =>
      match skipBlanks rest with
      | ']' :: rest => .ok ([v], rest)
      | ',' :: rest => (readItems fuel depth rest).map fun r => (v :: r.1, r.2)
      | [] => .error .truncated
      | _ => .error .malformed

/-- Reads the members of an object that has some, and its end. -/
def readMembers (fuel depth : Nat) (cs : List Char) :
    Except ReadError (List (String × Json) × List Char) :=
  match fuel with
  | 0 => .error .malformed
  | fuel + 1 =>
    match skipBlanks cs with
    | '"' :: rest =>
      match readString rest with
      | .error e => .error e
      | .ok (name, rest) =>
        match skipBlanks rest with
        | ':' :: rest =>
          match readValue fuel depth rest with
          | .error e => .error e
          | .ok (v, rest) =>
            match skipBlanks rest with
            | '\x7d' :: rest => .ok ([(String.ofList name, v)], rest)
            | ',' :: rest =>
              (readMembers fuel depth rest).map fun r => ((String.ofList name, v) :: r.1, r.2)
            | [] => .error .truncated
            | _ => .error .malformed
        | [] => .error .truncated
        | _ => .error .malformed
    | [] => .error .truncated
    | _ => .error .malformed

end

/-- Reads a document. -/
def parse (text : String) : Except ReadError Json :=
  let cs := text.toList
  finish (readValue (2 * cs.length + 1) depthLimit cs)

end Logline.Json
