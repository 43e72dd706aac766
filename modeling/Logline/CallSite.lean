import Logline.Path
import Logline.Text.Bytes
import Logline.Text.Inspect
/-!
# Call sites

The place in the source code that a record is attributed to, and how to find the place a number of calls
further out. The call stack is the list of its symbols from the innermost outwards; a symbol may lack a
file or a line, and then it does not count.
-/

namespace Logline

/-- A place in the source code. -/
structure CallSite where
  file : String
  line : Nat
  deriving DecidableEq, Repr, Inhabited

namespace CallSite

/-- The characters after the last separator of directories, a slash of either kind. -/
def afterSeparators (cs : List Char) : List Char :=
  (cs.reverse.takeWhile fun c => c != '/' && c != '\\').reverse

/-- The file name without directories. -/
def basename (site : CallSite) : String := String.ofList (afterSeparators site.file.toList)

/-- A call site as records show it. -/
def text (site : CallSite) : String := site.basename ++ ":" ++ toString site.line

/-- A call site for diagnostics. -/
def inspect (site : CallSite) : String :=
  Text.inspectRecord "CallSite" [("file", Text.inspect site.file), ("line", toString site.line)]

end CallSite

/-! ### Call stacks -/

/-- A symbol on the call stack. -/
structure StackSymbol where
  file : Option String
  line : Option Nat
  deriving DecidableEq, Repr

/-- A call stack, from the innermost symbol outwards. -/
abbrev CallStack := List StackSymbol

/-- The place of a symbol, if it is known. -/
def StackSymbol.site? (s : StackSymbol) : Option CallSite :=
  match s.file, s.line with
  | some file, some line => some ⟨file, line⟩
  | _, _ => none

namespace CallSite

/-- Whether a place on the stack is the call site. -/
def isAt (site found : CallSite) : Bool :=
  found.line == site.line && pathEndsWith found.file site.file

/-- Walks outwards from the place of a call site; `left` more places have to be passed. -/
def walkUp (left : Nat) : CallStack → Option CallSite
  | [] => none
  | s :: outer =>
    match s.site? with
    | none => walkUp left outer
    | some found => if left ≤ 1 then some found else walkUp (left - 1) outer

/-- Looks for a call site on the stack and walks `depth` places outwards from there. -/
def searchUp (site : CallSite) (depth : Nat) : CallStack → Option CallSite
  | [] => none
  | s :: outer =>
    match s.site? with
    | none => site.searchUp depth outer
    | some found => if site.isAt found then walkUp depth outer else site.searchUp depth outer

/-- The place `depth` calls further out, if the stack has it. -/
def resolveUp (site : CallSite) (depth : Nat) (stack : CallStack) : Option CallSite :=
  if depth = 0 then some site else site.searchUp depth stack

/-- The place `depth` calls further out, or the call site itself if the stack does not have it. -/
def attributed (site : CallSite) (depth : Nat) (stack : CallStack) : CallSite :=
  (site.resolveUp depth stack).getD site

end CallSite

end Logline
