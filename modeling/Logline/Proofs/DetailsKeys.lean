import Mathlib
import Logline.Proofs.Placeholders

/-!
# Keys of details

An error with details is written as two pairs: its own, and one for the details, whose key is derived from
the key of the error. De-duplication knows the two as one. It compares the keys that the caller gave, and
a pair for details stays or goes with its error. So every key that the caller gave is written once, and
the details of different errors have different keys; but a caller's key can be that of details, and then
it is written twice.

Main statement: `Formatter.nodup_writtenKeys_iff`. The keys of all written pairs are different if and only
if no error that stays has details under a key that the caller gave too.
-/

namespace Logline

/-- The key of the details of an error. -/
def detailsKey (key : Bytes) : Bytes := key ++ Text.utf8 "Details"

theorem detailsKey_injective : Function.Injective detailsKey := fun _ _ h => List.append_cancel_right h

namespace Formatter

variable (f : Formatter)

/-! ### The pairs that a pair is written as -/

/-- A pair as it is written, without the pair for details. -/
def ownPair (pair : Value × Value) : Rendering :=
  match pair.2 with
  | .fault fault => ⟨keyBytes pair.1, Text.textValue (guarded fault.shown.run)⟩
  | _ => f.rendering pair

/-- The pair for the details of an error, if it has some. -/
def detailsPair? (pair : Value × Value) : Option Rendering :=
  match pair.2 with
  | .fault fault => fault.evaluate.value.map fun result =>
      ⟨detailsKey (keyBytes pair.1), (f.writeAny [] (.json (guardedDetails result))).value⟩
  | _ => none

/-- The pairs that a pair is written as. -/
def pairsOf (pair : Value × Value) : List Rendering := f.ownPair pair :: (f.detailsPair? pair).toList

theorem key_ownPair (pair : Value × Value) : (f.ownPair pair).key = keyBytes pair.1 := by
  rw [ownPair]
  split <;> rfl

theorem key_detailsPair? {pair : Value × Value} {d : Rendering} (h : d ∈ f.detailsPair? pair) :
    d.key = detailsKey (keyBytes pair.1) := by
  rw [detailsPair?] at h
  split at h
  · obtain ⟨result, -, rfl⟩ := Option.mem_map.mp h
    rfl
  · cases h

/-- An error is written as its text, and behind that the pair for its details if it has some. -/
theorem valueBytes_fault (key : Bytes) (fault : Fault) :
    f.valueBytes key (.fault fault) = Text.textValue (guarded fault.shown.run) ++
      match fault.evaluate.value with
      | none => []
      | some result =>
        Text.utf8 " " ++ (detailsKey key ++ (f.writeAny [] (.json (guardedDetails result))).value) := by
  have hany := fun start v => (f.appends_writeAny v start).1
  cases hdetails : fault.evaluate.value with
  | none => simp [valueBytes, writeValue, writeFault, hdetails, value_showGuarded]
  | some result =>
    cases result <;>
      simp [valueBytes, writeValue, writeFault, hdetails, value_showGuarded, hany (_ ++ _), detailsKey,
        guardedDetails]

/-- The pairs that a pair is written as are its rendering. -/
theorem bytes_pairsOf (pair : Value × Value) :
    (f.pairsOf pair).flatMap Rendering.bytes = (f.rendering pair).bytes := by
  obtain ⟨key, value⟩ := pair
  cases value with
  | fault fault =>
    have hspace : Text.utf8 " " = [0x20] := by decide
    cases hdetails : fault.evaluate.value with
    | none => simp [pairsOf, ownPair, detailsPair?, rendering, Rendering.bytes, valueBytes_fault, hdetails]
    | some result =>
      simp [pairsOf, ownPair, detailsPair?, rendering, Rendering.bytes, valueBytes_fault, hdetails, hspace]
  | _ => exact List.append_nil _

/-! ### Pairs that stay -/

/-- The pairs whose renderings survive, in their order. -/
def surviving (pairs : List (Value × Value)) : List (Value × Value) :=
  ((List.range pairs.length).filter fun i => Survives (pairs.map f.rendering) i).filterMap fun i => pairs[i]?

theorem map_rendering_surviving (pairs : List (Value × Value)) :
    (f.surviving pairs).map f.rendering = survivors (pairs.map f.rendering) := by
  simp only [surviving, survivors, List.map_filterMap, List.length_map, List.getElem?_map]

theorem map_key_surviving (pairs : List (Value × Value)) :
    (f.surviving pairs).map (keyBytes ·.1) = (survivors (pairs.map f.rendering)).map Rendering.key := by
  rw [← map_rendering_surviving, List.map_map]
  rfl

theorem mem_keys_surviving {pairs : List (Value × Value)} {key : Bytes} :
    key ∈ (f.surviving pairs).map (keyBytes ·.1) ↔ ∃ pair ∈ pairs, keyBytes pair.1 = key := by
  rw [map_key_surviving, mem_keys_survivors]
  simp only [List.mem_map, exists_exists_and_eq_and, rendering]

/-- The pairs that lists are written as. -/
def writtenPairs (lists : List (List Value)) : List Rendering :=
  (f.surviving (lists.flatMap KeyValues.completePairs)).flatMap f.pairsOf

theorem value_writeLists_pairs (buf : Bytes) (lists : List (List Value)) :
    (f.writeLists buf lists).value = buf ++ (f.writtenPairs lists).flatMap Rendering.bytes := by
  rw [value_writeLists, ← map_rendering_surviving, writtenPairs, List.flatMap_assoc, List.flatMap_map]
  simp only [bytes_pairsOf]

/-- The keys of the details of pairs. -/
def detailsKeys (pairs : List (Value × Value)) : List Bytes :=
  pairs.flatMap fun pair => (f.detailsPair? pair).toList.map Rendering.key

theorem mem_detailsKeys {pairs : List (Value × Value)} {key : Bytes} :
    key ∈ f.detailsKeys pairs ↔ ∃ pair ∈ pairs, ∃ d ∈ f.detailsPair? pair, d.key = key := by
  simp only [detailsKeys, List.mem_flatMap, List.mem_map, Option.mem_toList, Option.mem_def]

/-- The written keys are those of the pairs that stay and those of their details. -/
theorem perm_writtenKeys (lists : List (List Value)) :
    let stay := f.surviving (lists.flatMap KeyValues.completePairs)
    ((f.writtenPairs lists).map Rendering.key).Perm (stay.map (keyBytes ·.1) ++ f.detailsKeys stay) := by
  intro stay
  have hkeys : (f.writtenPairs lists).map Rendering.key =
      stay.flatMap fun pair => keyBytes pair.1 :: (f.detailsPair? pair).toList.map Rendering.key := by
    simp only [writtenPairs, List.map_flatMap, pairsOf, List.map_cons, key_ownPair, stay]
  rw [hkeys]
  exact (List.map_append_flatMap_perm stay _ _).symm

theorem sublist_detailsKeys (pairs : List (Value × Value)) :
    (f.detailsKeys pairs).Sublist ((pairs.map (keyBytes ·.1)).map detailsKey) := by
  induction pairs with
  | nil => exact List.Sublist.slnil
  | cons pair rest ih =>
    rw [detailsKeys, List.flatMap_cons]
    cases hdetails : f.detailsPair? pair with
    | none => exact ih.cons _
    | some d =>
      rw [Option.toList_some, List.map_singleton, f.key_detailsPair? hdetails]
      exact ih.cons_cons _

/-- Lists are written as pairs, of which a key has one if the caller gave it, and one if it is that of
details that are written. So no key is written twice if and only if no error that stays has details under
a key that the caller gave; a key for which that is not so is written twice, and neither pair wins. -/
theorem nodup_writtenKeys_iff (buf : Bytes) (lists : List (List Value)) :
    let pairs := lists.flatMap KeyValues.completePairs
    let keys := (f.writtenPairs lists).map Rendering.key
    (f.writeLists buf lists).value = buf ++ (f.writtenPairs lists).flatMap Rendering.bytes ∧
      (∀ key, keys.count key = (if key ∈ pairs.map (keyBytes ·.1) then 1 else 0) +
        if key ∈ f.detailsKeys (f.surviving pairs) then 1 else 0) ∧
      (keys.Nodup ↔ ∀ stays ∈ f.surviving pairs, ∀ details ∈ f.detailsPair? stays, ∀ given ∈ pairs,
        keyBytes given.1 ≠ details.key) ∧
      ∀ stays ∈ f.surviving pairs, ∀ details ∈ f.detailsPair? stays,
        details.key = detailsKey (keyBytes stays.1) := by
  intro pairs keys
  have hperm := f.perm_writtenKeys lists
  have hgiven : ((f.surviving pairs).map (keyBytes ·.1)).Nodup := by
    rw [map_key_surviving]
    exact nodup_keys_survivors _
  have hdetails : (f.detailsKeys (f.surviving pairs)).Nodup :=
    (hgiven.map detailsKey_injective).sublist (f.sublist_detailsKeys _)
  refine ⟨f.value_writeLists_pairs buf lists, fun key => ?_, ?_, fun stays _ details hd => f.key_detailsPair? hd⟩
  · have hmem : key ∈ (f.surviving pairs).map (keyBytes ·.1) ↔ key ∈ pairs.map (keyBytes ·.1) := by
      rw [mem_keys_surviving, List.mem_map]
    rw [hperm.count_eq, List.count_append, hgiven.count, hdetails.count]
    simp only [hmem, pairs]
  · rw [hperm.nodup_iff, List.nodup_append', and_iff_right hgiven, and_iff_right hdetails]
    constructor
    · intro hdisjoint stays hstays details hd given hgivenMem hkey
      exact hdisjoint (f.mem_keys_surviving.mpr ⟨given, hgivenMem, hkey⟩)
        (f.mem_detailsKeys.mpr ⟨stays, hstays, details, hd, rfl⟩)
    · intro hne key hkey hkeyDetails
      obtain ⟨given, hgivenMem, rfl⟩ := f.mem_keys_surviving.mp hkey
      obtain ⟨stays, hstays, details, hd, heq⟩ := f.mem_detailsKeys.mp hkeyDetails
      exact hne stays hstays details hd given hgivenMem heq.symm

/-- An error with details, and behind it a pair with the key of the details. -/
def detailsGivenToo : List (List Value) :=
  [[.text "k", .fault ⟨⟨{ text := "m" }, none⟩, [.eager (.integer 1)]⟩, .text "kDetails", .text "x"]]

/-- A key is written twice, if the caller gives a pair with the key of details. -/
theorem not_nodup_writtenKeys :
    (({} : Formatter).writeLists [] detailsGivenToo).value =
        Text.utf8 " k=\"m\" kDetails=1 kDetails=\"x\"" ∧
      ¬ ((({} : Formatter).writtenPairs detailsGivenToo).map Rendering.key).Nodup := by
  decide +kernel

end Formatter

end Logline
