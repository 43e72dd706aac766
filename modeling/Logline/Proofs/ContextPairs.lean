import Mathlib
import Logline.Proofs.SinkStack

/-!
# Pairs of contexts

A context decorator puts the pairs of its context behind the list of the call, and the list that comes of
it is taken apart into pairs again only when the record is written. If the list of the call has even
length, or the contexts have nothing to add, that gives the pairs that the lists would have given one by
one. A key without a value at the end of the call's list, however, takes the name of the first context
pair for its value, and all names and values behind it change sides (`completePairs_append_odd`).

Main statement: `Sink.emit_contexts`, which says for every root and any number of contexts when a record
is written as if its lists were separate, and what is written if not.
-/

namespace Logline

namespace KeyValues

/-! ### Pairs of joined lists -/

theorem completePairs_cons_cons (k v : Value) (rest : List Value) :
    completePairs (k :: v :: rest) = (k, v) :: completePairs rest := rfl

theorem completePairs_append_of_even {kvs : List Value} (h : kvs.length % 2 = 0) (more : List Value) :
    completePairs (kvs ++ more) = completePairs kvs ++ completePairs more := by
  induction kvs using pairs.induct with
  | case1 => rfl
  | case2 k => cases h
  | case3 k v rest ih =>
    have hrest : rest.length % 2 = 0 := by
      rw [List.length_cons, List.length_cons] at h
      omega
    simp only [List.cons_append, completePairs_cons_cons, ih hrest]

/-- A key without a value takes the first of what is put behind it for its value. -/
theorem completePairs_append_odd {front : List Value} (h : front.length % 2 = 0) (k v : Value)
    (rest : List Value) :
    completePairs ((front ++ [k]) ++ v :: rest) = completePairs front ++ (k, v) :: completePairs rest := by
  rw [List.append_assoc, completePairs_append_of_even h]
  rfl

theorem completePairs_flatten {lists : List (List Value)} (h : ∀ kvs ∈ lists, kvs.length % 2 = 0) :
    completePairs lists.flatten = lists.flatMap completePairs := by
  induction lists with
  | nil => rfl
  | cons kvs lists ih =>
    rw [List.flatten_cons, completePairs_append_of_even (h kvs List.mem_cons_self), List.flatMap_cons,
      ih fun more hmore => h more (List.mem_cons_of_mem kvs hmore)]

theorem length_flatten {lists : List (List Value)} (h : ∀ kvs ∈ lists, kvs.length % 2 = 0) :
    lists.flatten.length % 2 = 0 := by
  induction lists with
  | nil => rfl
  | cons kvs lists ih =>
    have hkvs := h kvs List.mem_cons_self
    have hlists := ih fun more hmore => h more (List.mem_cons_of_mem kvs hmore)
    rw [List.flatten_cons, List.length_append]
    omega

theorem exists_completePairs_cons (k : Value) (rest : List Value) :
    ∃ v pairs, completePairs (k :: rest) = (k, v) :: pairs := by
  cases rest with
  | nil => exact ⟨_, _, rfl⟩
  | cons v rest => exact ⟨_, _, completePairs_cons_cons k v rest⟩

/-- Pairs that move up by one place are the same pairs only if all their parts are the placeholder. -/
theorem completePairs_cons_eq_iff {more : List Value} (h : more.length % 2 = 0) (k : Value) :
    completePairs (k :: more) = (k, .missing) :: completePairs more ↔ ∀ v ∈ more, v = .missing := by
  induction more using pairs.induct generalizing k with
  | case1 => simp [completePairs, pairs]
  | case2 v => cases h
  | case3 a b rest ih =>
    have hrest : rest.length % 2 = 0 := by
      rw [List.length_cons, List.length_cons] at h
      omega
    simp only [completePairs_cons_cons, List.forall_mem_cons, List.cons.injEq, Prod.mk.injEq, true_and]
    constructor
    · rintro ⟨rfl, hshift⟩
      -- the first key of what is left is the value `b`, and its place had a placeholder for a key
      obtain ⟨v, pairs, hhead⟩ := exists_completePairs_cons b rest
      obtain rfl : b = .missing := by
        rw [hhead] at hshift
        exact congrArg Prod.fst (List.cons.inj hshift).1
      exact ⟨rfl, rfl, (ih hrest .missing).mp hshift⟩
    · rintro ⟨rfl, rfl, hmissing⟩
      exact ⟨rfl, (ih hrest .missing).mpr hmissing⟩

theorem exists_concat_of_odd {kvs : List Value} (h : kvs.length % 2 ≠ 0) :
    ∃ front k, kvs = front ++ [k] ∧ front.length % 2 = 0 := by
  have hne : kvs ≠ [] := by
    rintro rfl
    exact h rfl
  refine ⟨kvs.dropLast, kvs.getLast hne, (List.dropLast_append_getLast hne).symm, ?_⟩
  rw [List.length_dropLast]
  omega

/-- Pairs that are put behind a list stay the same pairs if and only if the list has no key without a
value, or they are nothing but placeholders. -/
theorem completePairs_append_eq_iff {more : List Value} (h : more.length % 2 = 0) (kvs : List Value) :
    completePairs (kvs ++ more) = completePairs kvs ++ completePairs more ↔
      kvs.length % 2 = 0 ∨ ∀ v ∈ more, v = .missing := by
  by_cases hkvs : kvs.length % 2 = 0
  · exact iff_of_true (completePairs_append_of_even hkvs more) (Or.inl hkvs)
  · obtain ⟨front, k, rfl, hfront⟩ := exists_concat_of_odd hkvs
    rw [or_iff_right hkvs, ← completePairs_cons_eq_iff h k, List.append_assoc,
      completePairs_append_of_even hfront, completePairs_append_of_even hfront, List.append_assoc,
      List.append_cancel_left_eq]
    rfl

end KeyValues

/-! ### Pairs of a context -/

namespace Context

theorem length_extract (c : Context) (keys : List ContextKey) : (c.extract keys).length % 2 = 0 := by
  induction keys with
  | nil => rfl
  | cons k keys ih =>
    rw [extract, List.flatMap_cons, List.length_append]
    rw [extract] at ih
    split
    · simpa using ih
    · simpa using ih

/-- The pairs of a context are those of the keys in its table that it binds, each with its own name and
value. -/
theorem completePairs_extract (c : Context) (keys : List ContextKey) :
    KeyValues.completePairs (c.extract keys) =
      keys.filterMap fun k => (c.value? k.key).map fun v => (.text k.name, v) := by
  induction keys with
  | nil => rfl
  | cons k keys ih =>
    rw [extract, List.flatMap_cons]
    rw [extract] at ih
    cases hvalue : c.value? k.key with
    | none => simpa [hvalue] using ih
    | some v =>
      rw [List.filterMap_cons_some (by rw [hvalue]; rfl), ← ih]
      rfl

end Context

/-! ### Stacks of contexts -/

/-- A context with its table of keys. -/
abbrev ContextLayer := Context × List ContextKey

/-- The pairs of contexts as separate lists, the last context first. -/
def contextLists (layers : List ContextLayer) : List (List Value) :=
  (layers.map fun layer => layer.1.extract layer.2).reverse

theorem even_contextLists (layers : List ContextLayer) : ∀ kvs ∈ contextLists layers, kvs.length % 2 = 0 := by
  intro kvs hkvs
  rw [contextLists, List.mem_reverse] at hkvs
  obtain ⟨layer, -, rfl⟩ := List.mem_map.mp hkvs
  exact layer.1.length_extract layer.2

namespace Sink

/-- A sink with contexts around it, the first one innermost. -/
def withContexts (root : Sink) (layers : List ContextLayer) : Sink :=
  root.derive (layers.map fun layer => .context layer.1 layer.2)

theorem contextPairs_contexts (layers : List ContextLayer) :
    contextPairs (layers.map fun layer => .context layer.1 layer.2) = (contextLists layers).flatten := by
  induction layers with
  | nil => rfl
  | cons layer layers ih =>
    rw [List.map_cons, contextPairs, ih, contextLists, contextLists, List.map_cons, List.reverse_cons,
      List.flatten_append, List.flatten_singleton]

theorem foldl_applyGround_contexts (root : Sink) (layers : List ContextLayer) :
    (layers.map fun layer => Derivation.context layer.1 layer.2).foldl Derivation.applyGround root = root := by
  induction layers with
  | nil => rfl
  | cons layer layers ih => exact ih

/-- A root with contexts around it does what it does by itself with the pairs of all contexts behind the
call's list. Before that it may mark helper frames. -/
theorem emit_withContexts {root : Sink} (h : root.IsRoot) (layers : List ContextLayer) (record : LogRecord) :
    ∃ marks, OnlyMarks root marks ∧ (root.withContexts layers).emit record =
      marks ++ root.emit { record with kvs := record.kvs ++ (contextLists layers).flatten } := by
  obtain ⟨hcomposed, hground, hadded⟩ := h.plain
  obtain ⟨marks, hmarks, hemit⟩ := emit_eq (hcomposed.derive
    (layers.map fun layer => .context layer.1 layer.2)) record
  rw [ground_derive hcomposed, hground, foldl_applyGround_contexts] at hmarks hemit
  rw [added_derive, hadded, List.append_nil, contextPairs_contexts] at hemit
  exact ⟨marks, hmarks, hemit⟩

end Sink

/-! ### Lists that are written the same -/

theorem Formatter.writeLists_congr (f : Formatter) (buf : Bytes) {lists others : List (List Value)}
    (h : lists.flatMap KeyValues.completePairs = others.flatMap KeyValues.completePairs) :
    f.writeLists buf lists = f.writeLists buf others := by
  rw [writeLists, writeLists, h]

theorem Engine.printStructured_congr (e : Engine) (site : CallSite) (severity : Severity)
    (message : String) {lists others : List (List Value)}
    (h : lists.flatMap KeyValues.completePairs = others.flatMap KeyValues.completePairs) :
    e.printStructured site severity message lists = e.printStructured site severity message others := by
  simp only [printStructured, Formatter.writeStructured, Formatter.writeLists_congr _ _ h]

/-- Whether a record that reaches a root through contexts is written as the values of the root and some
lists behind them: on the engine, by a recording sink, and by a user's own sink. -/
def WrittenAs (layers : List ContextLayer) (record : LogRecord) (lists : List (List Value)) : Prop :=
  (∀ (e : Engine) (values : List Value) (depth : Nat),
      e.emit ((Sink.engine values depth).withContexts layers) record =
        e.printStructured (record.site.attributed depth e.stack) record.severity record.message
          (values :: lists)) ∧
    (∀ r : Recording, ∃ entry : RecordedEntry,
      (((Sink.recording r).withContexts layers).emit record).filter Delivery.isRecord =
          [.recorded r.recorder entry] ∧
        entry.text = ({} : Formatter).writeLists [] (r.values :: lists)) ∧
    ∀ (name : String) (muted : Severity) (values : List Value), ∃ shown : LogRecord,
      ((Sink.basic name muted values).withContexts layers).emit record = [.emitted name shown values] ∧
        Engine.basicText shown values = ({} : Formatter).writeLists
          (Text.utf8 (record.severity.name ++ " " ++ record.site.text ++ " " ++ record.message))
          (values :: lists)

theorem WrittenAs.congr {layers : List ContextLayer} {record : LogRecord} {lists others : List (List Value)}
    (h : WrittenAs layers record lists)
    (hpairs : lists.flatMap KeyValues.completePairs = others.flatMap KeyValues.completePairs) :
    WrittenAs layers record others := by
  have hbehind : ∀ values : List Value, (values :: lists).flatMap KeyValues.completePairs =
      (values :: others).flatMap KeyValues.completePairs := fun values => by
    rw [List.flatMap_cons, hpairs, List.flatMap_cons]
  obtain ⟨hengine, hrecording, hbasic⟩ := h
  refine ⟨fun e values depth => ?_, fun r => ?_, fun name muted values => ?_⟩
  · rw [hengine, e.printStructured_congr _ _ _ (hbehind values)]
  · obtain ⟨entry, hentry, htext⟩ := hrecording r
    exact ⟨entry, hentry, htext.trans (Formatter.writeLists_congr _ _ (hbehind r.values))⟩
  · obtain ⟨shown, hshown, htext⟩ := hbasic name muted values
    exact ⟨shown, hshown, htext.trans (Formatter.writeLists_congr _ _ (hbehind values))⟩

/-- The pairs of all contexts are written in one list with those of the call. -/
theorem writtenAs_joined (layers : List ContextLayer) (record : LogRecord) :
    WrittenAs layers record [record.kvs ++ (contextLists layers).flatten] := by
  refine ⟨fun e values depth => ?_, fun r => ?_, fun name muted values => ?_⟩
  · have hroot : (Sink.engine values depth).IsRoot := trivial
    obtain ⟨marks, hmarks, hemit⟩ := Sink.emit_withContexts hroot layers record
    rw [Engine.emit, hemit, hmarks.2 rfl, List.nil_append, Sink.emit, Engine.deliverAll_singleton,
      Engine.deliver]
  · have hroot : (Sink.recording r).IsRoot := trivial
    obtain ⟨marks, hmarks, hemit⟩ := Sink.emit_withContexts hroot layers record
    refine ⟨⟨record.site, record.severity, record.message, r.values,
      record.kvs ++ (contextLists layers).flatten, r.callDepth⟩, ?_, rfl⟩
    rw [hemit, List.filter_append, hmarks.1, List.nil_append, hroot.filter_emit, Sink.emit]
  · have hroot : (Sink.basic name muted values).IsRoot := trivial
    obtain ⟨marks, hmarks, hemit⟩ := Sink.emit_withContexts hroot layers record
    refine ⟨{ record with kvs := record.kvs ++ (contextLists layers).flatten }, ?_, rfl⟩
    rw [hemit, hmarks.2 rfl, List.nil_append, Sink.emit]

/-- The pairs of the contexts are written in one list with those of the call. They are the pairs of the
separate lists if and only if the list of the call has no key without a value, or the contexts add nothing
but placeholders, and then the record is written as if the lists were separate: the pairs of the contexts
are those of all keys that they bind, with their own names and values. A key without a value takes the
first name for its value otherwise, and what is behind that name is paired from there on. -/
theorem Sink.emit_contexts (layers : List ContextLayer) (record : LogRecord) :
    WrittenAs layers record [record.kvs ++ (contextLists layers).flatten] ∧
      ([record.kvs ++ (contextLists layers).flatten].flatMap KeyValues.completePairs =
          (record.kvs :: contextLists layers).flatMap KeyValues.completePairs ↔
        record.kvs.length % 2 = 0 ∨ ∀ v ∈ (contextLists layers).flatten, v = .missing) ∧
      (record.kvs.length % 2 = 0 ∨ (∀ v ∈ (contextLists layers).flatten, v = .missing) →
        WrittenAs layers record (record.kvs :: contextLists layers)) ∧
      ((contextLists layers).flatMap KeyValues.completePairs = layers.reverse.flatMap fun layer =>
        layer.2.filterMap fun k => (layer.1.value? k.key).map fun v => (.text k.name, v)) ∧
      ∀ front k name rest, record.kvs = front ++ [k] → front.length % 2 = 0 →
        (contextLists layers).flatten = name :: rest →
        [record.kvs ++ (contextLists layers).flatten].flatMap KeyValues.completePairs =
          KeyValues.completePairs front ++ (k, name) :: KeyValues.completePairs rest := by
  have hiff : [record.kvs ++ (contextLists layers).flatten].flatMap KeyValues.completePairs =
        (record.kvs :: contextLists layers).flatMap KeyValues.completePairs ↔
      record.kvs.length % 2 = 0 ∨ ∀ v ∈ (contextLists layers).flatten, v = .missing := by
    rw [List.flatMap_singleton, List.flatMap_cons, ← KeyValues.completePairs_flatten (even_contextLists layers)]
    exact KeyValues.completePairs_append_eq_iff (KeyValues.length_flatten (even_contextLists layers)) record.kvs
  refine ⟨writtenAs_joined layers record, hiff, fun h => ?_, ?_, fun front k name rest hkvs hfront hflat => ?_⟩
  · exact (writtenAs_joined layers record).congr (hiff.mpr h)
  · rw [contextLists, ← List.map_reverse, List.flatMap_map]
    simp only [Context.completePairs_extract]
  · rw [List.flatMap_singleton, hkvs, hflat]
    exact KeyValues.completePairs_append_odd hfront k name rest

/-- A context with the id of a trace. -/
def traced : ContextLayer := (⟨[("trace", .text "t1")]⟩, [⟨"trace", "traceID"⟩])

/-- A context whose table names a key twice, and a key that is not bound. -/
def renamed : ContextLayer :=
  (⟨[("user", .nat 7)]⟩, [⟨"user", "userID"⟩, ⟨"tenant", "tenant"⟩, ⟨"user", "uid"⟩])

theorem Sink.emit_contexts_even :
    WrittenAs [traced, renamed] ⟨⟨"f.rs", 1⟩, .info, "m", [.text "a", .nat 1]⟩
      [[.text "a", .nat 1], [.text "userID", .nat 7, .text "uid", .nat 7], [.text "traceID", .text "t1"]] :=
  (Sink.emit_contexts [traced, renamed] ⟨⟨"f.rs", 1⟩, .info, "m", [.text "a", .nat 1]⟩).2.2.1 (Or.inl rfl)

/-- A key without a value takes the name of a context pair for its value, and the value of that pair
becomes a key. -/
theorem not_writtenAs_orphan :
    WrittenAs [traced] ⟨⟨"f.rs", 1⟩, .info, "m", [.text "a"]⟩ [[.text "a", .text "traceID", .text "t1"]] ∧
      (({} : Formatter).writeLists [] [[.text "a", .text "traceID", .text "t1"]]).value =
        Text.utf8 " a=\"traceID\" t1=\"(MISSING)\"" ∧
      (({} : Formatter).writeLists [] [[.text "a"], [.text "traceID", .text "t1"]]).value =
        Text.utf8 " a=\"(MISSING)\" traceID=\"t1\"" ∧
      ¬ WrittenAs [traced] ⟨⟨"f.rs", 1⟩, .info, "m", [.text "a"]⟩
        [[.text "a"], [.text "traceID", .text "t1"]] := by
  have hjoined := writtenAs_joined [traced] ⟨⟨"f.rs", 1⟩, .info, "m", [.text "a"]⟩
  refine ⟨hjoined, by decide +kernel, by decide +kernel, ?_⟩
  rintro ⟨-, hrecording, -⟩
  -- a recording sink has one entry, and its text would have to be both
  obtain ⟨entry, hentry, htext⟩ := hrecording { recorder := 0 }
  obtain ⟨joined, hsame, hjoinedText⟩ := hjoined.2.1 { recorder := 0 }
  obtain rfl : entry = joined := by simpa using hentry.symm.trans hsame
  have hvalue := congrArg Traced.value (htext.symm.trans hjoinedText)
  revert hvalue
  decide +kernel

end Logline
