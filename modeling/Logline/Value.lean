import Logline.Fault
import Logline.Text.Octet
import Logline.Text.Block
/-!
# Values

What a key or a value of a log call can be: plain data, or a hook that is run when the record is
formatted. Lists of keys and values are flat, keys and values in turn; a key at the end of a list of odd
length has the placeholder `missing` for its value.

Main statements: `length_withValues` (an extended list has even length if the list it extends has) and
`flatten_pairs` (the pairs of a list are the list, padded).
-/

namespace Logline

/-- A key or value of a log call. -/
inductive Value where
  | null
  | bool (b : Bool)
  | int (i : Int)
  | nat (n : Nat)
  | float (x : Binary64)
  | text (s : String)
  | bytes (bs : Bytes)
  | json (v : Json)
  | encoded (e : Encoder)
  | shown (h : ShowHook)
  | fault (f : Fault)
  /-- Stands for another value, unless it panics; `probe` names it for counting its runs. -/
  | marshal (probe : Option String) (panic : Option Panic) (value : Value)
  | written (h : WriteHook)
  deriving Inhabited

namespace Value

/-- What stands for a value that is missing. -/
def missingText : String := "(MISSING)"

/-- The value of a key that has none. -/
def missing : Value := .text missingText

/-- The text of a plain text. -/
def text? : Value → Option String
  | .text s => some s
  | _ => none

/-- An error for the log as a value. -/
def ofFault (f : Fault) : Value := .fault f

/-- An error of any type as a value. -/
def ofError (e : AnyError) : Value := .ofFault e.fault

/-- An error with details as a value. -/
def ofDetailed (e : DetailedError) : Value := .ofFault (AnyError.detailed e).fault

/-- A value for diagnostics. Hooks are named, not run. -/
def inspect : Value → String
  | .null => "Null"
  | .bool b => "Bool(" ++ toString b ++ ")"
  | .int i => "Int(" ++ toString i ++ ")"
  | .nat n => "UInt(" ++ toString n ++ ")"
  | .float x => "Float(" ++ String.ofList (Decimal.plainChars x) ++ ")"
  | .text s => "Str(" ++ Text.inspect s ++ ")"
  | .bytes bs => "Bytes(" ++ Text.inspectList (bs.map fun b => toString b.toNat) ++ ")"
  | .json v => "Json(" ++ v.compact ++ ")"
  | .encoded _ => "Serialize(..)"
  | .shown _ => "Display(..)"
  | .fault _ => "Error(..)"
  | .marshal _ _ _ => "Marshal(..)"
  | .written _ => "Text(..)"

end Value

/-! ### Lists of keys and values -/

namespace KeyValues

/-- The pairs of a list. The key at the end of a list of odd length has no value. -/
def pairs : List Value → List (Value × Option Value)
  | [] => []
  | [k] => [(k, none)]
  | k :: v :: rest => (k, some v) :: pairs rest

/-- The pairs of a list, with the placeholder for a missing value. -/
def completePairs (kvs : List Value) : List (Value × Value) :=
  (pairs kvs).map fun p => (p.1, p.2.getD .missing)

/-- A list of even length: one of odd length gets the placeholder at its end. -/
def padded (kvs : List Value) : List Value :=
  if kvs.length % 2 = 0 then kvs else kvs ++ [.missing]

/-- A list extended by another, padded. Nothing is padded when there is nothing to add. -/
def withValues (old new : List Value) : List Value :=
  if new.isEmpty then old else padded (old ++ new)

theorem length_padded (kvs : List Value) : (padded kvs).length % 2 = 0 := by
  unfold padded
  split
  · assumption
  · simp only [List.length_append, List.length_singleton]; omega

theorem length_withValues (old new : List Value) (h : old.length % 2 = 0) :
    (withValues old new).length % 2 = 0 := by
  unfold withValues; split
  · exact h
  · exact length_padded _

theorem flatten_pairs (kvs : List Value) :
    (completePairs kvs).flatMap (fun p => [p.1, p.2]) = padded kvs := by
  induction kvs using pairs.induct with
  | case1 => simp [completePairs, pairs, padded]
  | case2 k => simp [completePairs, pairs, padded]
  | case3 k v rest ih =>
    simp only [completePairs, pairs, List.map_cons, List.flatMap_cons, Option.getD_some] at ih ⊢
    rw [ih]
    have : (rest.length + 1 + 1) % 2 = rest.length % 2 := by omega
    simp only [padded, List.length_cons, this]
    split <;> simp

end KeyValues

end Logline
