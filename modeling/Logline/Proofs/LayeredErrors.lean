import Mathlib
import Logline.Proofs.DetailsKeys

/-!
# Errors with layers of details

An error can be given details more than once. Whether the error at hand has some already shows at run time
only, and each time it is asked: when details are added, and when the error becomes a value
(`AnyError.attach`, `AnyError.fault`). Taken for the log, an error is its base with all its layers in order
(`AnyError.fault_attachAll`), so their number and their kinds make no difference.

Main statement: `AnyError.attachAll_logged`. However many layers an error has, its text and its cause are
those of the innermost error, its details are one list, unless there is one layer, and all three ways to
make a value of it are written the same.
-/

namespace Logline

/-! ### Layers of errors of any type -/

namespace AnyError

/-- Attaching details adds a layer to those that the error has. -/
theorem fault_attach (e : AnyError) (d : Details) :
    (detailed (e.attach d)).fault = { e.fault with layers := e.fault.layers ++ [d] } := by
  cases e with
  | plain e => rfl
  | detailed e => rfl

theorem fault_attachAll (e : AnyError) (d : Details) (rest : List Details) :
    (detailed (e.attachAll d rest)).fault = { e.fault with layers := e.fault.layers ++ d :: rest } := by
  induction rest generalizing e d with
  | nil => exact e.fault_attach d
  | cons next rest ih =>
    have hrest := ih (.detailed (e.attach d)) next
    rw [fault_attach] at hrest
    rw [attachAll, List.foldl_cons]
    refine hrest.trans ?_
    rw [List.append_assoc, List.singleton_append]

end AnyError

/-! ### The details of all layers -/

/-- One layer's details are as they are. The innermost ones, if they are a list, are extended by the others;
else all of them make a list, in which lists of outer layers are items. -/
def Json.layered : Json → List Json → Json
  | v, [] => v
  | .array items, outer => .array (items ++ outer)
  | v, outer => .array (v :: outer)

namespace Details

theorem value_evaluateAll_ok_iff (layers : List Details) (vs : List Json) :
    (evaluateAll layers).value = .ok vs ↔ layers.map value = vs.map .ok := by
  induction layers generalizing vs with
  | nil => cases vs <;> simp [evaluateAll]
  | cons d rest ih =>
    rw [(evaluateAll_cons d rest).1]
    cases hd : d.value with
    | error p => cases vs <;> simp [hd]
    | ok v =>
      cases vs with
      | nil => cases (evaluateAll rest).value <;> simp [Except.map]
      | cons w vs =>
        rw [List.map_cons, List.map_cons, hd, List.cons.injEq, Except.ok.injEq, ← ih]
        cases (evaluateAll rest).value <;> simp [Except.map]

/-- The panic of layers is that of the first one that panics; those behind it are not evaluated. -/
theorem value_evaluateAll_error_iff (layers : List Details) (p : Panic) :
    (evaluateAll layers).value = .error p ↔
      ∃ before d after, layers = before ++ d :: after ∧ (∀ b ∈ before, ∃ v, b.value = .ok v) ∧
        d.value = .error p := by
  induction layers with
  | nil => simp [evaluateAll]
  | cons first rest ih =>
    rw [(evaluateAll_cons first rest).1]
    cases hfirst : first.value with
    | error q =>
      constructor
      · rintro h
        cases h
        exact ⟨[], first, rest, rfl, List.forall_mem_nil _, hfirst⟩
      · rintro ⟨before, d, after, hsplit, hbefore, hd⟩
        cases before with
        | nil =>
          cases hsplit
          cases hfirst.symm.trans hd
          rfl
        | cons b before =>
          cases hsplit
          obtain ⟨v, hv⟩ := hbefore first List.mem_cons_self
          cases hfirst.symm.trans hv
    | ok v =>
      have hmap : (evaluateAll rest).value.map (v :: ·) = .error p ↔ (evaluateAll rest).value = .error p := by
        cases (evaluateAll rest).value <;> simp [Except.map]
      rw [hmap, ih]
      constructor
      · rintro ⟨before, d, after, rfl, hbefore, hd⟩
        exact ⟨first :: before, d, after, rfl, List.forall_mem_cons.mpr ⟨⟨v, hfirst⟩, hbefore⟩, hd⟩
      · rintro ⟨before, d, after, hsplit, hbefore, hd⟩
        cases before with
        | nil =>
          cases hsplit
          cases hfirst.symm.trans hd
        | cons b before =>
          cases hsplit
          exact ⟨before, d, after, rfl, (List.forall_mem_cons.mp hbefore).2, hd⟩

end Details

namespace Fault

theorem flatten_eq_layered (v : Json) (vs : List Json) : flatten v vs = v.layered vs := by
  rw [flatten_eq]
  cases vs <;> cases v <;> rfl

/-- An error with layers has details, or one of its layers panics. -/
theorem value_evaluate_layers (base : BaseError) (d : Details) (rest : List Details) :
    (evaluate ⟨base, d :: rest⟩).value =
      some (match (Details.evaluateAll (d :: rest)).value with
        | .error p => .error p
        | .ok [] => .ok .null
        | .ok (v :: vs) => .ok (v.layered vs)) := by
  rw [evaluate]
  cases hvalue : (Details.evaluateAll (d :: rest)).value with
  | error p => simp [hvalue]
  | ok vs => cases vs <;> simp [hvalue, flatten_eq_layered]

end Fault

/-! ### In a line -/

namespace Formatter

theorem survivors_singleton (r : Rendering) : survivors [r] = [r] := by
  have hsurvives : Survives [r] 0 :=
    ⟨fun j hj hlt => absurd hj (by simp; omega), fun j hj => absurd hj (Nat.not_lt_zero j)⟩
  rw [survivors, List.length_singleton, List.range_one, List.filter_cons_of_pos (by simpa using hsurvives)]
  rfl

/-- A single pair is written as its rendering. -/
theorem value_writeLists_pair (f : Formatter) (buf : Bytes) (key v : Value) :
    (f.writeLists buf [[key, v]]).value = buf ++ (f.rendering (key, v)).bytes := by
  rw [value_writeLists]
  simp [KeyValues.completePairs, KeyValues.pairs, survivors_singleton]

end Formatter

namespace AnyError

/-- An error that was given details, once or more often. It has the text and the cause that it had before.
Its details are those of all layers, unless a producer panics, and then the first panic is all there is of
them. As a value it is a pair of its text, or the placeholder for that, and a pair of its details as JSON, or
the placeholder as a JSON string: all three ways to make a value of it are written so. -/
theorem attachAll_logged (base : BaseError) (d : Details) (rest : List Details) (buf : Bytes) (key : Value) :
    let e := (plain base).attachAll d rest
    let details := (detailed e).fault.evaluate.value
    let written := fun value => (({} : Formatter).writeLists buf [[key, value]]).value
    e.shown = base.shown ∧ e.cause = base.cause ∧
      (∀ v vs, d.value = .ok v → rest.map Details.value = vs.map .ok → details = some (.ok (v.layered vs))) ∧
      (∀ p, details = some (.error p) ↔ ∃ before layer after, d :: rest = before ++ layer :: after ∧
        (∀ b ∈ before, ∃ v, b.value = .ok v) ∧ layer.value = .error p) ∧
      ∃ result, details = some result ∧
        let line := buf ++
          Rendering.bytes ⟨Formatter.keyBytes key, Text.textValue (guarded base.shown.run)⟩ ++
          Rendering.bytes ⟨detailsKey (Formatter.keyBytes key),
            Text.utf8 "=" ++ Text.encode (Json.chars (guardedDetails result))⟩
        written (.ofError (.detailed e)) = line ∧ written (.ofFault (detailed e).fault) = line ∧
          written (.ofDetailed e) = line := by
  intro e details written
  have hfault : (detailed e).fault = ⟨base, d :: rest⟩ := fault_attachAll (plain base) d rest
  have hbase : e.base = base := congrArg Fault.base hfault
  have hdetails : details = _ := hfault ▸ Fault.value_evaluate_layers base d rest
  refine ⟨congrArg BaseError.shown hbase, congrArg BaseError.cause hbase, ?_, fun p => ?_, ?_⟩
  · intro v vs hv hvs
    have hall : (Details.evaluateAll (d :: rest)).value = .ok (v :: vs) := by
      rw [Details.value_evaluateAll_ok_iff, List.map_cons, List.map_cons, hv, hvs]
    exact hdetails.trans (by rw [hall])
  · rw [← Details.value_evaluateAll_error_iff, hdetails, Option.some.injEq]
    cases hvalue : (Details.evaluateAll (d :: rest)).value with
    | error q => simp
    | ok vs => cases vs <;> simp
  · refine ⟨_, hdetails, ?_⟩
    intro line
    -- all three values are the error for the log, with the same base and layers
    have hline : written (.fault (detailed e).fault) = line := by
      have hshown : (detailed e).fault.shown = base.shown := congrArg Fault.shown hfault
      have hspace : Text.utf8 " " = [0x20] := by decide
      simp only [written]
      rw [Formatter.value_writeLists_pair, Formatter.rendering, Formatter.valueBytes_fault, hshown,
        show (detailed e).fault.evaluate.value = _ from hdetails]
      simp [line, Rendering.bytes, Formatter.writeAny, Formatter.encodeValue, hspace]
    exact ⟨hline, hline, hline⟩

/-- The innermost list is extended, and a list of an outer layer is one item, be it produced or given. -/
theorem attachAll_logged_mixed :
    let e := (plain ⟨{ text := "base" }, none⟩).attachAll (.eager (.array [.integer 1]))
      [.produced none (.ok (.array [.integer 2])), .eager .null]
    let line := Text.utf8 " err=\"base\" errDetails=[1,[2],null]"
    (detailed e).fault.evaluate.value = some (.ok (.array [.integer 1, .array [.integer 2], .null])) ∧
      ∀ value ∈ [Value.ofError (.detailed e), .ofFault (detailed e).fault, .ofDetailed e],
        (({} : Formatter).writeLists [] [[.text "err", value]]).value = line := by
  intro e line
  obtain ⟨-, -, hdetails, -, result, hresult, herror, hfault, hdetailed⟩ :=
    attachAll_logged ⟨{ text := "base" }, none⟩ (.eager (.array [.integer 1]))
      [.produced none (.ok (.array [.integer 2])), .eager .null] [] (.text "err")
  have hlayered := hdetails (.array [.integer 1]) [.array [.integer 2], .null] rfl rfl
  obtain rfl : Except.ok _ = result := Option.some.inj (hlayered.symm.trans hresult)
  refine ⟨hlayered, List.forall_mem_cons.mpr ⟨herror.trans ?_, List.forall_mem_cons.mpr ⟨hfault.trans ?_,
    List.forall_mem_singleton.mpr (hdetailed.trans ?_)⟩⟩⟩ <;> decide +kernel

end AnyError

end Logline
