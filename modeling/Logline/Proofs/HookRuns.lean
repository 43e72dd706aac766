import Mathlib
import Logline.Proofs.Placeholders

/-!
# Which hooks are run

Writing a pair runs the hook of its key, if it has one, and then the hooks of its value: one, or for an
error its text and the producers of its details, or for a value that stands for another one itself and at
most one hook of the other. `Formatter.pairRuns` lists them without writing anything.

Main statement: `Formatter.writeLists_runs`. Lists run the hooks of their pairs, pair by pair, each once.
Neither a pair that is written again nor one that is cut out makes a difference.
-/

namespace Logline

/-! ### The hooks of a pair -/

/-- Whether a run asks a value for the one that it stands for. -/
def HookCall.isMarshal : HookCall → Bool
  | .marshal _ _ _ => true
  | _ => false

/-- Whether a run produces details. -/
def HookCall.isDetails : HookCall → Bool
  | .details _ => true
  | _ => false

/-- Whether the producer of a layer panics. -/
def Details.panics (d : Details) : Bool :=
  match d.value with
  | .ok _ => false
  | .error _ => true

/-- The layers up to the first that panics, that one included. -/
def Details.reached (layers : List Details) : List Details := layers.take (layers.findIdx panics + 1)

/-- The producers that are run for the details of an error, innermost first. -/
def Fault.detailsRuns (fault : Fault) : List HookCall := (Details.reached fault.layers).flatMap Details.runs

/-- The details of an error as they are logged, if it has some. -/
def Fault.loggedDetails? (fault : Fault) : Option Json := fault.evaluate.value.map guardedDetails

namespace Value

/-- The hook of a key. Only that of a shown value is run. -/
def keyRuns : Value → List HookCall
  | .shown h => [.shown h]
  | _ => []

/-- The hook that is run to encode a value. Neither details nor a value that stands for another one have a
say in that. -/
def encodingRuns : Value → List HookCall
  | .encoded e => [.encoded e]
  | .shown h => [.shown h]
  | .fault f => [.shown f.shown]
  | .written h => [.written h]
  | _ => []

/-- A value that stands for another one is asked for it. -/
def marshalRuns : Value → List HookCall
  | .marshal probe panic v => [.marshal probe panic v]
  | _ => []

/-- The producers that are run for a value. -/
def detailsRuns : Value → List HookCall
  | .fault f => f.detailsRuns
  | _ => []

end Value

namespace Formatter

variable (f : Formatter)

/-- The hook that is run for a value that has no form of its own: that of the formatter, or else that of the
value. -/
def anyRuns (v : Value) : List HookCall :=
  match f.fallback with
  | some _ => [.fallback v]
  | none => v.encodingRuns

/-- The hooks that are run for a value. -/
def valueRuns : Value → List HookCall
  | .written h => [.written h]
  | .shown h => [.shown h]
  | .text _ => []
  | .bytes _ => []
  | .fault fault =>
    .shown fault.shown :: (fault.detailsRuns ++ fault.loggedDetails?.elim [] fun d => f.anyRuns (.json d))
  | .marshal probe panic v =>
    .marshal probe panic v ::
      match panic, v with
      | some _, _ => []
      | none, .text _ => []
      | none, other => f.anyRuns other
  | v => f.anyRuns v

/-- The hooks that are run for a pair. -/
def pairRuns (pair : Value × Value) : List HookCall := pair.1.keyRuns ++ f.valueRuns pair.2

end Formatter

/-! ### One pair -/

theorem Details.calls_evaluateAll (layers : List Details) :
    (evaluateAll layers).calls = (reached layers).flatMap runs := by
  induction layers with
  | nil => rfl
  | cons d rest ih =>
    obtain ⟨-, hcalls⟩ := evaluateAll_cons d rest
    rw [hcalls, ih]
    unfold reached
    rw [List.findIdx_cons]
    cases hd : d.value with
    | ok v => simp [panics, hd]
    | error p => simp [panics, hd]

theorem Fault.calls_evaluate_eq (fault : Fault) : fault.evaluate.calls = fault.detailsRuns := by
  rw [calls_evaluate, Details.calls_evaluateAll]
  split_ifs with hempty
  · rw [detailsRuns, List.isEmpty_iff.mp hempty]
    rfl
  · rfl

namespace Formatter

theorem calls_writeKey (buf : Bytes) (key : Value) : (writeKey buf key).calls = key.keyRuns := by
  cases key <;> rfl

theorem calls_encodeValue (v : Value) : (encodeValue v).calls = v.encodingRuns := by
  cases v with
  | float x =>
    rw [encodeValue]
    split_ifs <;> rfl
  | encoded e => cases e <;> rfl
  | _ => rfl

variable (f : Formatter) (buf : Bytes)

theorem calls_writeAny (v : Value) : (f.writeAny buf v).calls = f.anyRuns v := by
  unfold writeAny anyRuns
  cases f.fallback with
  | some hook => rfl
  | none =>
    have hcalls := calls_encodeValue v
    cases hfailure : (encodeValue v).value.2 <;> simp [hcalls, hfailure]

theorem calls_writeWritten (h : WriteHook) : (writeWritten buf h).calls = [.written h] := by
  unfold writeWritten
  cases hpanic : h.panic <;> simp

theorem calls_writeFault (key : Bytes) (fault : Fault) :
    (f.writeFault buf key fault).calls = f.valueRuns (.fault fault) := by
  have hdetails := fault.calls_evaluate_eq
  unfold writeFault valueRuns Fault.loggedDetails?
  cases hvalue : fault.evaluate.value with
  | none => simp [hvalue, hdetails, showGuarded, ShowHook.traced]
  | some result =>
    cases result <;>
      simp [hvalue, hdetails, showGuarded, ShowHook.traced, calls_writeAny, guardedDetails]

theorem calls_writeValue (key : Bytes) (v : Value) : (f.writeValue buf key v).calls = f.valueRuns v := by
  cases v with
  | written h => exact calls_writeWritten buf h
  | shown h => rfl
  | text s => rfl
  | bytes bs => rfl
  | fault fault => exact f.calls_writeFault buf key fault
  | marshal probe panic v =>
    cases panic with
    | some p => rfl
    | none =>
      cases v with
      | text s => rfl
      | _ => exact congrArg (HookCall.marshal _ _ _ :: ·) (f.calls_writeAny buf _)
  | _ => exact f.calls_writeAny buf _

theorem calls_writePair (key v : Value) : (f.writePair buf key v).calls = f.pairRuns (key, v) := by
  rw [writePair_calls, calls_writeKey, calls_writeValue]
  rfl

/-! ### Hooks of one kind -/

variable {f} in
theorem kind_of_mem_anyRuns {v : Value} {call : HookCall} (h : call ∈ f.anyRuns v) :
    call.isMarshal = false ∧ call.isDetails = false := by
  unfold anyRuns at h
  split at h
  · rw [List.mem_singleton.mp h]
    exact ⟨rfl, rfl⟩
  · cases v <;> simp only [Value.encodingRuns, List.mem_singleton, List.not_mem_nil] at h <;>
      subst h <;> exact ⟨rfl, rfl⟩

theorem filter_isMarshal_anyRuns (v : Value) : (f.anyRuns v).filter HookCall.isMarshal = [] :=
  List.filter_eq_nil_iff.mpr fun _ h => Bool.eq_false_iff.mp (kind_of_mem_anyRuns h).1

theorem filter_isDetails_anyRuns (v : Value) : (f.anyRuns v).filter HookCall.isDetails = [] :=
  List.filter_eq_nil_iff.mpr fun _ h => Bool.eq_false_iff.mp (kind_of_mem_anyRuns h).2

theorem kind_of_mem_detailsRuns {fault : Fault} {call : HookCall} (h : call ∈ fault.detailsRuns) :
    call.isMarshal = false ∧ call.isDetails = true := by
  obtain ⟨d, -, hd⟩ := List.mem_flatMap.mp h
  cases d with
  | eager v => cases hd
  | produced probe result =>
    rw [List.mem_singleton.mp hd]
    exact ⟨rfl, rfl⟩

theorem filter_keyRuns {kind : HookCall → Bool} (h : ∀ hook, kind (.shown hook) = false) (key : Value) :
    key.keyRuns.filter kind = [] := by
  cases key <;> simp [Value.keyRuns, h]

/-- A value that stands for another one is asked once, and then at most the other is rendered. -/
theorem valueRuns_marshal (probe : Option String) (panic : Option Panic) (v : Value) :
    f.valueRuns (.marshal probe panic v) = [.marshal probe panic v] ∨
      f.valueRuns (.marshal probe panic v) = .marshal probe panic v :: f.anyRuns v := by
  cases panic with
  | some p => exact .inl rfl
  | none =>
    cases v with
    | text s => exact .inl rfl
    | _ => exact .inr rfl

theorem filter_valueRuns_marshal {kind : HookCall → Bool} (hany : ∀ v, (f.anyRuns v).filter kind = [])
    (probe : Option String) (panic : Option Panic) (v : Value) :
    (f.valueRuns (.marshal probe panic v)).filter kind = [.marshal probe panic v].filter kind := by
  rcases f.valueRuns_marshal probe panic v with heq | heq
  · rw [heq]
  · rw [heq, ← List.singleton_append, List.filter_append, hany, List.append_nil]

theorem length_anyRuns_le (v : Value) : (f.anyRuns v).length ≤ 1 := by
  unfold anyRuns
  split
  · exact le_rfl
  · cases v <;> simp [Value.encodingRuns]

/-- Only the values of pairs are asked for the ones that they stand for. -/
theorem filter_isMarshal_pairRuns (pair : Value × Value) :
    (f.pairRuns pair).filter HookCall.isMarshal = pair.2.marshalRuns := by
  have hany := f.filter_isMarshal_anyRuns
  obtain ⟨key, value⟩ := pair
  unfold pairRuns
  rw [List.filter_append, filter_keyRuns (fun _ => rfl), List.nil_append]
  cases value with
  | fault fault =>
    have hdetails : fault.detailsRuns.filter HookCall.isMarshal = [] :=
      List.filter_eq_nil_iff.mpr fun _ h => Bool.eq_false_iff.mp (kind_of_mem_detailsRuns h).1
    cases hlogged : fault.loggedDetails? <;>
      simp [valueRuns, Value.marshalRuns, HookCall.isMarshal, hdetails, hlogged, hany]
  | marshal probe panic v => exact f.filter_valueRuns_marshal hany probe panic v
  | _ => simp [valueRuns, Value.marshalRuns, HookCall.isMarshal, hany]

/-- Only errors that are the values of pairs have their details produced. -/
theorem filter_isDetails_pairRuns (pair : Value × Value) :
    (f.pairRuns pair).filter HookCall.isDetails = pair.2.detailsRuns := by
  have hany := f.filter_isDetails_anyRuns
  obtain ⟨key, value⟩ := pair
  unfold pairRuns
  rw [List.filter_append, filter_keyRuns (fun _ => rfl), List.nil_append]
  cases value with
  | fault fault =>
    have hdetails : fault.detailsRuns.filter HookCall.isDetails = fault.detailsRuns :=
      List.filter_eq_self.mpr fun _ h => (kind_of_mem_detailsRuns h).2
    cases hlogged : fault.loggedDetails? <;>
      simp [valueRuns, Value.detailsRuns, HookCall.isDetails, hdetails, hlogged, hany]
  | marshal probe panic v => exact f.filter_valueRuns_marshal hany probe panic v
  | _ => simp [valueRuns, Value.detailsRuns, HookCall.isDetails, hany]

/-! ### Lists -/

/-- Lists run the hooks of their pairs in order, each once, whatever is in the buffer and whichever pairs
stay: for a pair that of its key, and then those of its value. Values that others stand for are not asked in
turn, and the details of errors that others stand for are not produced. -/
theorem writeLists_runs (buf : Bytes) (lists : List (List Value)) :
    let pairs := lists.flatMap KeyValues.completePairs
    let calls := (f.writeLists buf lists).calls
    calls = pairs.flatMap f.pairRuns ∧
      calls.filter HookCall.isMarshal = pairs.flatMap (·.2.marshalRuns) ∧
      calls.filter HookCall.isDetails = pairs.flatMap (·.2.detailsRuns) ∧
      ∀ probe panic v, ∃ other,
        f.valueRuns (.marshal probe panic v) = .marshal probe panic v :: other ∧ other.length ≤ 1 := by
  intro pairs calls
  have hcalls : calls = pairs.flatMap f.pairRuns := by
    show (f.writeLists buf lists).calls = _
    rw [calls_writeLists]
    exact List.flatMap_congr fun pair _ => f.calls_writePair [] pair.1 pair.2
  refine ⟨hcalls, ?_, ?_, fun probe panic v => ?_⟩
  · rw [hcalls, List.filter_flatMap]
    exact List.flatMap_congr fun pair _ => f.filter_isMarshal_pairRuns pair
  · rw [hcalls, List.filter_flatMap]
    exact List.flatMap_congr fun pair _ => f.filter_isDetails_pairRuns pair
  · rcases f.valueRuns_marshal probe panic v with heq | heq
    · exact ⟨[], heq, Nat.zero_le 1⟩
    · exact ⟨f.anyRuns v, heq, f.length_anyRuns_le v⟩

example (h : ShowHook) (v : Value) :
    (({} : Formatter).writeLists []
      [[.shown h, .fault ⟨⟨h, none⟩, [.produced none (.error .other), .produced none (.ok .null)]⟩],
        [.shown h, .marshal none none (.marshal none none v)]]).calls =
      [.shown h, .shown h, .details (.produced none (.error .other)), .shown h,
        .marshal none none (.marshal none none v)] := by
  rfl

end Formatter

end Logline
