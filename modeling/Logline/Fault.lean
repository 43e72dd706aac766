import Logline.Hook
/-!
# Errors as values

An error that is logged has a text and possibly a cause. It can be given details for the log, any number of
times: the innermost error is kept, and the details are collected, innermost first. Details are given at
once or produced when the error is logged.

Whether an error has details shows at run time only, and each time it is asked: when more are added
(`AnyError.attach`), and when the error is taken for the log (`AnyError.fault`).

Main statement: `flatten_eq` (the details of several layers are one list, which extends the list of the
innermost layer).
-/

namespace Logline

/-- An error by itself. -/
structure BaseError where
  shown : ShowHook
  cause : Option BaseError := none
  deriving Inhabited

/-- Details that a wrapping adds to an error. -/
inductive Details where
  | eager (value : Json)
  /-- Produced when the error is logged; `probe` names the producer for counting its runs. -/
  | produced (probe : Option String) (result : Except Panic Json)

/-- What the details of a layer come to. -/
def Details.value : Details → Except Panic Json
  | .eager v => .ok v
  | .produced _ r => r

/-! ### Errors of any type -/

/-- An error with details. It has at least one layer. -/
structure DetailedError where
  base : BaseError
  innermost : Details
  outer : List Details := []

/-- An error, of which only its value shows whether it has details. -/
inductive AnyError where
  | plain (e : BaseError)
  | detailed (e : DetailedError)

namespace DetailedError

/-- The text is that of the error without details. -/
def shown (e : DetailedError) : ShowHook := e.base.shown

/-- The cause is that of the error without details. -/
def cause (e : DetailedError) : Option BaseError := e.base.cause

/-- All layers, the innermost one first. -/
def layers (e : DetailedError) : List Details := e.innermost :: e.outer

end DetailedError

/-- An error for the log, with its layers of details, innermost first. An error that was given no details
has none. -/
structure Fault where
  base : BaseError
  layers : List Details := []
  deriving Inhabited

namespace AnyError

/-- Adds a layer of details. An error that has some keeps its base and its layers. -/
def attach : AnyError → Details → DetailedError
  | .plain e, d => { base := e, innermost := d }
  | .detailed e, d => { e with outer := e.outer ++ [d] }

/-- Adds layers in turn, one at least. -/
def attachAll (e : AnyError) (d : Details) (rest : List Details) : DetailedError :=
  rest.foldl (fun e d => (AnyError.detailed e).attach d) (e.attach d)

/-- The error for the log. Details are kept, if there are some. -/
def fault : AnyError → Fault
  | .plain e => { base := e }
  | .detailed e => { base := e.base, layers := e.layers }

end AnyError

namespace Fault

/-- The text of an error is that of the innermost error. -/
def shown (f : Fault) : ShowHook := f.base.shown

/-- The cause of an error is that of the innermost error. -/
def cause (f : Fault) : Option BaseError := f.base.cause

/-- An error with its details for diagnostics, given the diagnostic text of the innermost error. -/
def inspect (f : Fault) (base : String) : String :=
  Text.inspectRecord "ErrorWithDetails"
    [("source", base), ("details", toString f.layers.length)]

/-! ### The details of all layers -/

/-- Details gathered so far with those of the next layer: a list is extended, anything else starts one. -/
def gather (gathered outer : Json) : Json :=
  match gathered with
  | .array items => .array (items ++ [outer])
  | single => .array [single, outer]

/-- The details of several layers as one value: that of a single layer, else one list. -/
def flatten (innermost : Json) (outer : List Json) : Json := outer.foldl gather innermost

theorem foldl_gather_array (items outer : List Json) :
    outer.foldl gather (.array items) = .array (items ++ outer) := by
  induction outer generalizing items with
  | nil => simp
  | cons v rest ih => simp [gather, ih]

theorem flatten_eq (innermost : Json) (outer : List Json) :
    flatten innermost outer =
      match outer, innermost with
      | [], v => v
      | outer, .array items => .array (items ++ outer)
      | outer, v => .array (v :: outer) := by
  cases outer with
  | nil => rfl
  | cons v rest => cases innermost <;> simp [flatten, gather, foldl_gather_array]

end Fault

end Logline
