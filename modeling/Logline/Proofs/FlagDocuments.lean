import Mathlib
import Logline.Proofs.FlagRuns
import Logline.Proofs.JsonTexts

/-!
# Flags in documents

A flag table can be given as a JSON object, and each of its members is a call of a flag: its name is that of
the flag, and its value encodes the setting in the flag's grammar (`Grammar.Encodes`). Texts of calls have
grammars of their own, so a setting can be written in both (`Grammar.Denotes`).

Main statement: `FlagTable.ofText_agrees`. However an object is written, it is a flag table exactly if every
member is a call of a flag and no flag is called twice, and then it comes to the same settings as the calls
in text form, in whatever order these are made.
-/

namespace Logline

open Json

/-! ### Values in documents -/

namespace Grammar

/-- The value that a JSON value encodes, if it encodes one. -/
def Encodes : Grammar → Source → Setting → Prop
  | .truth, .bool b, .truth c => c = b
  | .severity, .string s, .severity t => Severity.ofText s = .ok t
  | .level, .number n, .level k => n.natural? = some k.toNat
  | _, _, _ => False

theorem Encodes.unique {g : Grammar} {v : Source} {x y : Setting} (hx : g.Encodes v x)
    (hy : g.Encodes v y) : x = y := by
  cases g <;> cases v <;> cases x <;> (try exact hx.elim) <;> cases y <;> try exact hy.elim
  · rw [show _ = _ from hx, show _ = _ from hy]
  · rw [Except.ok.inj (Eq.trans (Eq.symm hx) hy)]
  · rw [UInt32.toNat_inj.mp (Option.some.inj (Eq.trans (Eq.symm hx) hy))]

/-- Reads a value out of a document. -/
def readJson (g : Grammar) : Reader Setting := fun cs =>
  match g with
  | .truth => (readBool cs).map fun r => (.truth r.1, r.2)
  | .severity => (FlagTable.readSeverity cs).map fun r => (.severity r.1, r.2)
  | .level => (readUInt32 cs).map fun r => (.level r.1, r.2)

/-- What is read is what a source encodes, and nothing is read if it encodes nothing. -/
def Decodes (g : Grammar) (v : Source) (rest : List Char) : Except ReadError (Setting × List Char) → Prop
  | .ok (x, left) => g.Encodes v x ∧ left = rest
  | .error _ => ∀ x, ¬ g.Encodes v x

end Grammar

/-- The readers of values follow the grammars of settings. -/
theorem Grammar.decodes_readJson (g : Grammar) {v : Source} {before cs rest : List Char}
    (hbefore : Blanks before) (h : v.WrittenAs cs) (hrest : Stops rest) :
    g.Decodes v rest (g.readJson (before ++ (cs ++ rest))) := by
  have hrefused : ∀ {α : Type} (result : Except ReadError (α × List Char)) (f : α → Setting),
      (∃ e, result = .error e) → (∀ x, ¬ g.Encodes v x) →
      g.Decodes v rest (result.map fun r => (f r.1, r.2)) := by
    rintro α result f ⟨e, rfl⟩ hnone
    exact hnone
  cases g with
  | truth =>
    by_cases hv : ∃ b, v = .bool b
    · obtain ⟨b, rfl⟩ := hv
      rw [readJson, readBool_bool hbefore h]
      exact ⟨rfl, rfl⟩
    · push Not at hv
      refine hrefused _ _ (readBool_mismatch hbefore h hv rest) fun x hx => ?_
      cases v with
      | bool b => exact hv b rfl
      | _ => exact hx
  | severity =>
    by_cases hv : ∃ s, v = .string s
    · obtain ⟨s, rfl⟩ := hv
      rw [readJson, FlagTable.readSeverity, readText_string hbefore h]
      dsimp only
      cases hseverity : Severity.ofText s with
      | ok t => exact ⟨hseverity, rfl⟩
      | error error =>
        intro x hx
        cases x with
        | severity t => cases hseverity.symm.trans hx
        | _ => exact hx
    · push Not at hv
      obtain ⟨e, hread⟩ := readText_mismatch hbefore h hv rest
      refine hrefused _ _ ⟨e, by rw [FlagTable.readSeverity, hread]⟩ fun x hx => ?_
      cases v with
      | string s => exact hv s rfl
      | _ => exact hx
  | level =>
    by_cases hv : ∃ n, v = .number n
    · obtain ⟨n, rfl⟩ := hv
      rcases readUInt32_number hbefore h hrest with ⟨k, hk, hread⟩ | ⟨hnone, hread⟩
      · rw [readJson, hread]
        exact ⟨hk, rfl⟩
      · refine hrefused _ _ hread fun x hx => ?_
        cases x with
        | level k => exact hnone k hx
        | _ => exact hx
    · push Not at hv
      refine hrefused _ _ (readUInt32_mismatch hbefore h hv rest) fun x hx => ?_
      cases v with
      | number n => exact hv n rfl
      | _ => exact hx

/-! ### Members -/

theorem exists_mem_of_forall₂ {α β : Type} {R : α → β → Prop} {xs : List α} {ys : List β}
    (h : List.Forall₂ R xs ys) {x : α} (hx : x ∈ xs) : ∃ y ∈ ys, R x y := by
  induction h with
  | nil => cases hx
  | cons hfirst hrest ih =>
    rcases List.mem_cons.mp hx with rfl | hx
    · exact ⟨_, List.mem_cons_self, hfirst⟩
    · obtain ⟨y, hy, hrelated⟩ := ih hx
      exact ⟨y, List.mem_cons_of_mem _ hy, hrelated⟩

/-- A member of an object is a call of a flag with a setting. -/
def Assigns (m : String × Source) (a : Flag × Setting) : Prop :=
  a.1.name = m.1 ∧ a.1.grammar.Encodes m.2 a.2

theorem Assigns.unique {m : String × Source} {a b : Flag × Setting} (ha : Assigns m a) (hb : Assigns m b) :
    a = b := by
  have hflag : a.1 = b.1 := Flag.name_injective (ha.1.trans hb.1.symm)
  have hencodes := hb.2
  rw [← hflag] at hencodes
  exact Prod.ext hflag (ha.2.unique hencodes)

/-- The thresholds with settings replaced in turn. -/
def Thresholds.putAll (t : Thresholds) (order : List (Flag × Setting)) : Thresholds :=
  order.foldl (fun t a => t.put a.1 a.2) t

namespace FlagTable

/-- The table with one setting replaced. -/
def put (table : FlagTable) (flag : Flag) (v : Setting) : FlagTable :=
  ofThresholds (table.toThresholds.put flag v)

theorem readValue_eq (table : FlagTable) (flag : Flag) (cs : List Char) :
    table.readValue flag cs = (flag.grammar.readJson cs).map fun r => (table.put flag r.1, r.2) := by
  cases flag with
  | toConsole => rw [readValue, Flag.grammar, Grammar.readJson]; cases Json.readBool cs <;> rfl
  | alsoToConsole => rw [readValue, Flag.grammar, Grammar.readJson]; cases Json.readBool cs <;> rfl
  | legacy => rw [readValue, Flag.grammar, Grammar.readJson]; cases Json.readBool cs <;> rfl
  | consoleThreshold => rw [readValue, Flag.grammar, Grammar.readJson]; cases readSeverity cs <;> rfl
  | alsoThreshold => rw [readValue, Flag.grammar, Grammar.readJson]; cases readSeverity cs <;> rfl
  | verbosity => rw [readValue, Flag.grammar, Grammar.readJson]; cases readUInt32 cs <;> rfl

/-- What is left of the text of an object: its members, or what follows those that were read. -/
def MembersFollow (isFirst : Bool) (members : List (String × Source)) (cs : List Char) : Prop :=
  match isFirst, members with
  | true, members => Source.MembersWrittenAs members cs
  | false, [] => Blanks cs
  | false, members => ∃ blanks after, cs = blanks ++ ',' :: after ∧ Blanks blanks ∧
      Source.MembersWrittenAs members after

/-- The first member with what follows it. -/
theorem membersWrittenAs_cons {name : String} {v : Source} {members : List (String × Source)} {cs : List Char}
    (h : Source.MembersWrittenAs ((name, v) :: members) cs) :
    ∃ lead key middle before value behind,
      cs = lead ++ (key ++ (middle ++ ':' :: (before ++ (value ++ behind)))) ∧ Blanks lead ∧
      Quotes name key ∧ Blanks middle ∧ Blanks before ∧ v.WrittenAs value ∧
      MembersFollow false members behind := by
  cases members with
  | nil =>
    obtain ⟨key, value, rfl, ⟨lead, quoted, middle, rfl, hlead, hquoted, hmiddle⟩,
      ⟨before, inner, after, rfl, hbefore, hinner, hafter⟩⟩ := h
    exact ⟨lead, quoted, middle, before, inner, after, by simp only [List.append_assoc], hlead, hquoted,
      hmiddle, hbefore, hinner, hafter⟩
  | cons m members =>
    obtain ⟨key, value, rest, rfl, ⟨lead, quoted, middle, rfl, hlead, hquoted, hmiddle⟩,
      ⟨before, inner, after, rfl, hbefore, hinner, hafter⟩, hrest⟩ := h
    exact ⟨lead, quoted, middle, before, inner, after ++ ',' :: rest, by simp only [List.append_assoc],
      hlead, hquoted, hmiddle, hbefore, hinner, after, rest, rfl, hafter, hrest⟩

theorem skipBlanks_quoted {lead key : List Char} {name : String} (hlead : Blanks lead)
    (hkey : Quotes name key) (rest : List Char) :
    ∃ body, skipBlanks (lead ++ (key ++ rest)) = '"' :: (body ++ '"' :: rest) ∧
      readString (body ++ '"' :: rest) = .ok (name.toList, rest) := by
  obtain ⟨body, rfl, hspells⟩ := hkey
  have hquote : isBlank '"' = false := rfl
  refine ⟨body, ?_, readString_spells hspells rest⟩
  rw [skipBlanks_append hlead, List.cons_append, skipBlanks_cons hquote, List.append_assoc,
    List.singleton_append]

/-- A name is read at the start of an object, and behind a comma everywhere else. -/
theorem readName_quoted {lead key : List Char} {name : String} (hlead : Blanks lead) (hkey : Quotes name key)
    (rest : List Char) :
    readName true (lead ++ (key ++ rest)) = .ok (some name, rest) ∧
      ∀ blanks, Blanks blanks →
        readName false (blanks ++ ',' :: (lead ++ (key ++ rest))) = .ok (some name, rest) := by
  obtain ⟨body, hskip, hread⟩ := skipBlanks_quoted hlead hkey rest
  have hname : (readString (body ++ '"' :: rest)).map (fun r => (some (String.ofList r.1), r.2)) =
      .ok (some name, rest) := by
    rw [hread, Except.map, String.ofList_toList]
  refine ⟨?_, fun blanks hblanks => ?_⟩
  · rw [readName, hskip]
    exact hname
  · have hcomma : isBlank ',' = false := rfl
    rw [readName, skipBlanks_append hblanks, skipBlanks_cons hcomma]
    simp only [Bool.false_eq_true, reduceIte, hskip]
    exact hname

theorem readName_end {blanks : List Char} (h : Blanks blanks) (isFirst : Bool) (rest : List Char) :
    readName isFirst (blanks ++ '\x7d' :: rest) = .ok (none, rest) := by
  have hbrace : isBlank '\x7d' = false := rfl
  rw [readName, skipBlanks_append h, skipBlanks_cons hbrace]
  rfl

theorem readColon_append {blanks : List Char} (h : Blanks blanks) (rest : List Char) :
    readColon (blanks ++ ':' :: rest) = .ok ((), rest) := by
  have hcolon : isBlank ':' = false := rfl
  rw [readColon, skipBlanks_append h, skipBlanks_cons hcolon]
  rfl

/-- A value stops where the next member begins, or the object ends. -/
theorem stops_membersFollow {members : List (String × Source)} {cs : List Char}
    (h : MembersFollow false members cs) (rest : List Char) : Stops (cs ++ '\x7d' :: rest) := by
  have hblank : ∀ c, isBlank c = true → c.isDigit = false ∧ c ≠ '.' ∧ c ≠ 'e' ∧ c ≠ 'E' := by
    intro c hc
    simp only [isBlank, Bool.or_eq_true, beq_iff_eq] at hc
    rcases hc with ((rfl | rfl) | rfl) | rfl <;> decide
  have hstops : ∀ {blanks : List Char} {d : Char} (more : List Char), Blanks blanks →
      (d.isDigit = false ∧ d ≠ '.' ∧ d ≠ 'e' ∧ d ≠ 'E') → Stops (blanks ++ d :: more) := by
    intro blanks d more hblanks hd c hc
    cases blanks with
    | nil =>
      cases hc
      exact hd
    | cons b blanks =>
      have hfirst : b = c := Option.some.inj hc
      exact hblank c (hfirst ▸ hblanks b List.mem_cons_self)
  cases members with
  | nil => exact hstops rest h (by decide)
  | cons m members =>
    obtain ⟨blanks, after, rfl, hblanks, -⟩ := h
    rw [List.append_assoc, List.cons_append]
    exact hstops _ hblanks (by decide)

/-- What comes of reading members: the settings that they assign, if no flag comes twice. -/
def Collects (members : List (String × Source)) (unseen : List Flag) (table : FlagTable) (rest : List Char) :
    Except ReadError (FlagTable × List Char) → Prop
  | .ok (result, left) => left = rest ∧ ∃ order, List.Forall₂ Assigns members order ∧
      (order.map Prod.fst).Nodup ∧ (∀ a ∈ order, a.1 ∈ unseen) ∧
      result.toThresholds = table.toThresholds.putAll order
  | .error _ => ∀ order, List.Forall₂ Assigns members order → (order.map Prod.fst).Nodup →
      ¬ ∀ a ∈ order, a.1 ∈ unseen

theorem Collects.cons {m : String × Source} {members : List (String × Source)} {a : Flag × Setting}
    {unseen : List Flag} {table : FlagTable} {rest : List Char}
    {result : Except ReadError (FlagTable × List Char)}
    (h : Collects members (unseen.erase a.1) (table.put a.1 a.2) rest result) (hm : Assigns m a)
    (hunseen : unseen.Nodup) (hseen : a.1 ∈ unseen) : Collects (m :: members) unseen table rest result := by
  cases result with
  | ok r =>
    obtain ⟨hleft, order, horder, hnodup, hall, hputs⟩ := h
    refine ⟨hleft, a :: order, .cons hm horder, ?_, ?_, hputs⟩
    · refine List.nodup_cons.mpr ⟨fun hmem => ?_, hnodup⟩
      obtain ⟨b, hb, hsame⟩ := List.mem_map.mp hmem
      exact (hunseen.mem_erase_iff.mp (hall b hb)).1 hsame
    · exact List.forall_mem_cons.mpr ⟨hseen, fun b hb => List.mem_of_mem_erase (hall b hb)⟩
  | error e =>
    intro order horder hnodup hall
    cases horder with
    | @cons _ b _ order hfirst hrest =>
      obtain rfl := hm.unique hfirst
      obtain ⟨hnew, hnodup⟩ := List.nodup_cons.mp hnodup
      refine h order hrest hnodup fun b hb => hunseen.mem_erase_iff.mpr ⟨?_, ?_⟩
      · rintro hsame
        exact hnew (hsame ▸ List.mem_map_of_mem hb)
      · exact hall b (List.mem_cons_of_mem _ hb)

/-- The name of the next member is read, wherever the member stands. -/
theorem readName_member {isFirst : Bool} {name : String} {v : Source} {members : List (String × Source)}
    {cs : List Char} (h : MembersFollow isFirst ((name, v) :: members) cs) (rest : List Char) :
    ∃ middle before value behind, readName isFirst (cs ++ '\x7d' :: rest) =
        .ok (some name, middle ++ ':' :: (before ++ (value ++ (behind ++ '\x7d' :: rest)))) ∧
      Blanks middle ∧ Blanks before ∧ v.WrittenAs value ∧ MembersFollow false members behind := by
  cases isFirst with
  | true =>
    obtain ⟨lead, key, middle, before, value, behind, rfl, hlead, hkey, hmiddle, hbefore, hvalue, hbehind⟩ :=
      membersWrittenAs_cons h
    refine ⟨middle, before, value, behind, ?_, hmiddle, hbefore, hvalue, hbehind⟩
    simp only [List.append_assoc, List.cons_append]
    exact (readName_quoted hlead hkey _).1
  | false =>
    obtain ⟨blanks, after, rfl, hblanks, hafter⟩ := h
    obtain ⟨lead, key, middle, before, value, behind, rfl, hlead, hkey, hmiddle, hbefore, hvalue, hbehind⟩ :=
      membersWrittenAs_cons hafter
    refine ⟨middle, before, value, behind, ?_, hmiddle, hbefore, hvalue, hbehind⟩
    simp only [List.append_assoc, List.cons_append]
    exact (readName_quoted hlead hkey _).2 blanks hblanks

/-- The members of an object are read one by one. Behind each of them one flag less may come. -/
theorem collects_readMembers {members : List (String × Source)} {unseen : List Flag} (hunseen : unseen.Nodup)
    (table : FlagTable) {isFirst : Bool} {cs : List Char} (h : MembersFollow isFirst members cs)
    (rest : List Char) :
    Collects members unseen table rest (readMembers unseen table isFirst (cs ++ '\x7d' :: rest)) := by
  induction members generalizing unseen table isFirst cs with
  | nil =>
    have hblanks : Blanks cs := by cases isFirst <;> exact h
    rw [readMembers, readName_end hblanks]
    exact ⟨rfl, [], .nil, List.nodup_nil, nofun, rfl⟩
  | cons m members ih =>
    obtain ⟨name, v⟩ := m
    have hname := readName_member h rest
    obtain ⟨middle, before, value, behind, hread, hmiddle, hbefore, hvalue, hbehind⟩ := hname
    have hstops := stops_membersFollow hbehind rest
    rw [readMembers]
    simp only [hread]
    cases hflag : Flag.ofName? name with
    | none =>
      have hunknown := (Flag.ofName?_eq_none_iff name).mp hflag
      intro order horder
      cases horder with
      | cons hfirst hrest => exact (hunknown _ hfirst.1).elim
    | some flag =>
      have hknown : flag.name = name := (Flag.ofName?_eq_some_iff name flag).mp hflag
      have hflags : ∀ a, Assigns (name, v) a → a.1 = flag := fun a ha =>
        Flag.name_injective (ha.1.trans hknown.symm)
      dsimp only
      split
      · next hseen =>
        simp only [readColon_append hmiddle, readValue_eq]
        have hdecodes := flag.grammar.decodes_readJson hbefore hvalue hstops
        cases hjson : flag.grammar.readJson (before ++ (value ++ (behind ++ '\x7d' :: rest))) with
        | error e =>
          rw [hjson] at hdecodes
          intro order horder
          cases horder with
          | @cons _ a _ order hfirst hrest =>
            have hencodes := hfirst.2
            rw [hflags a hfirst] at hencodes
            exact (hdecodes a.2 hencodes).elim
        | ok result =>
          obtain ⟨x, left⟩ := result
          rw [hjson] at hdecodes
          obtain ⟨hencodes, rfl⟩ := hdecodes
          have hassigns : Assigns (name, v) (flag, x) := ⟨hknown, hencodes⟩
          have hcollects : Collects members (unseen.erase flag) (table.put flag x) rest
              (readMembers (unseen.erase flag) (table.put flag x) false (behind ++ '\x7d' :: rest)) :=
            ih (hunseen.erase flag) (table.put flag x) hbehind
          exact hcollects.cons hassigns hunseen hseen
      · next hseen =>
        intro order horder hnodup hall
        cases horder with
        | @cons _ a _ order hfirst hrest => exact hseen (hflags a hfirst ▸ hall a List.mem_cons_self)

/-- A text of an object is a flag table if its members are calls of flags, all of different ones. -/
theorem ofText_object {members : List (String × Source)} {text : String}
    (h : (Source.object members).IsText text) :
    (∃ table order, ofText text = .ok table ∧ List.Forall₂ Assigns members order ∧
        (order.map Prod.fst).Nodup ∧ table.toThresholds = ({} : Thresholds).putAll order) ∨
      (∃ e, ofText text = .error e) ∧
        ∀ order, List.Forall₂ Assigns members order → ¬ (order.map Prod.fst).Nodup := by
  obtain ⟨before, cs, after, htext, hbefore, ⟨body, rfl, hbody⟩, hafter⟩ := h
  have hbrace : isBlank '\x7b' = false := rfl
  have hread : ofText text = finish (readMembers Flag.all initial true (body ++ '\x7d' :: after)) := by
    rw [ofText, htext, skipBlanks_append hbefore, List.cons_append, skipBlanks_cons hbrace,
      List.append_assoc, List.singleton_append]
    rfl
  have hall : Flag.all.Nodup := by decide
  have hmembers : MembersFollow true members body := hbody
  have hcollects := collects_readMembers hall initial hmembers after
  rw [hread]
  generalize readMembers Flag.all initial true (body ++ '\x7d' :: after) = result at hcollects
  match result with
  | .ok (table, left) =>
    obtain ⟨rfl, order, horder, hnodup, -, hputs⟩ := hcollects
    refine .inl ⟨table, order, ?_, horder, hnodup, hputs⟩
    rw [finish]
    exact if_pos (skipBlanks_eq_nil hafter)
  | .error e =>
    exact .inr ⟨⟨e, rfl⟩, fun order horder hnodup => hcollects order horder hnodup fun a _ => a.1.mem_all⟩

theorem ofText_of_assigns {members : List (String × Source)} {text : String}
    (h : (Source.object members).IsText text) {order : List (Flag × Setting)}
    (horder : List.Forall₂ Assigns members order) (hnodup : (order.map Prod.fst).Nodup) :
    ofText text = .ok (ofThresholds (({} : Thresholds).putAll order)) := by
  rcases ofText_object h with ⟨table, order', hread, horder', -, hputs⟩ | ⟨-, hnone⟩
  · have hunique : Relator.RightUnique Assigns := fun _ _ _ => Assigns.unique
    rw [hread, hunique.forall₂ horder horder', ← hputs, ofThresholds_toThresholds]
  · exact (hnone order horder hnodup).elim

theorem names_of_assigns {members : List (String × Source)} {order : List (Flag × Setting)}
    (h : List.Forall₂ Assigns members order) :
    members.map Prod.fst = (order.map Prod.fst).map Flag.name := by
  induction h with
  | nil => rfl
  | cons hfirst hrest ih => rw [List.map_cons, ih, ← hfirst.1]; rfl

/-! ### The compact text of a table -/

/-- The members of the compact text of a table. -/
def sources (table : FlagTable) : List (String × Source) :=
  [(Flag.toConsole.name, .bool table.logToConsole), (Flag.alsoToConsole.name, .bool table.alsoLogToConsole),
    (Flag.consoleThreshold.name, .string table.consoleThreshold.name),
    (Flag.alsoThreshold.name, .string table.alsoThreshold.name), (Flag.legacy.name, .bool table.legacy),
    (Flag.verbosity.name, .number (.ofNat table.verbosity.toNat))]

/-- The settings of a table, in its order. -/
def settings (table : FlagTable) : List (Flag × Setting) :=
  Flag.all.map fun flag => (flag, table.toThresholds.setting flag)

theorem isText_compact (table : FlagTable) : (Source.object table.sources).IsText table.toJson.compact := by
  refine .of_bare ⟨_, String.toList_ofList, membersWrittenAs_memberChars ?_⟩
  have htruth : ∀ b, (Source.bool b).WrittenAs (Json.bool b).chars := fun b => by cases b <;> rfl
  have hseverity : ∀ s : String, (Source.string s).WrittenAs (Json.string s).chars := quotes_stringChars
  have hlevel : ∀ n : Nat, (Source.number (.ofNat n)).WrittenAs (Json.integer n).chars := fun n =>
    (NumberText.chars_ofNat n).symm
  exact .cons ⟨rfl, htruth _⟩ (.cons ⟨rfl, htruth _⟩ (.cons ⟨rfl, hseverity _⟩ (.cons ⟨rfl, hseverity _⟩
    (.cons ⟨rfl, htruth _⟩ (.cons ⟨rfl, hlevel _⟩ .nil)))))

theorem assigns_sources (table : FlagTable) : List.Forall₂ Assigns table.sources table.settings := by
  have hname : ∀ s : Severity, Severity.ofText s.name = .ok s := fun s => by cases s <;> decide
  exact .cons ⟨rfl, rfl⟩ (.cons ⟨rfl, rfl⟩ (.cons ⟨rfl, hname _⟩ (.cons ⟨rfl, hname _⟩ (.cons ⟨rfl, rfl⟩
    (.cons ⟨rfl, NumberText.natural?_ofNat _⟩ .nil)))))

theorem ofText_compact (table : FlagTable) : ofText table.toJson.compact = .ok table := by
  have hnodup : (table.settings.map Prod.fst).Nodup := by
    have hflags : table.settings.map Prod.fst = Flag.all := rfl
    rw [hflags]
    decide
  exact ofText_of_assigns table.isText_compact table.assigns_sources hnodup

end FlagTable

/-! ### Calls in text form -/

/-- The elements of the first list stand for those of the second one, in any order. -/
def InAnyOrder {α β : Type} (R : α → β → Prop) (xs : List α) (ys : List β) : Prop :=
  ∃ order, order.Perm ys ∧ List.Forall₂ R xs order

namespace Thresholds

/-- Settings of different flags can be put in any order. -/
theorem put_comm (t : Thresholds) {flag other : Flag} (hne : flag ≠ other) (v w : Setting) :
    (t.put flag v).put other w = (t.put other w).put flag v := by
  cases flag <;> cases other <;> first
    | exact (hne rfl).elim
    | cases v <;> cases w <;> rfl

theorem putAll_perm (t : Thresholds) {order order' : List (Flag × Setting)} (h : order.Perm order')
    (hnodup : (order.map Prod.fst).Nodup) : t.putAll order = t.putAll order' := by
  refine h.foldl_eq' (fun a ha b hb t => ?_) t
  by_cases hsame : a.1 = b.1
  · rw [List.inj_on_of_nodup_map hnodup ha hb hsame]
  · exact t.put_comm hsame a.2 b.2

theorem call_sets (t : Thresholds) {c : FlagText} {a : Flag × Setting} (h : c.Sets a.1 a.2) :
    (t.call c).2 = t.put a.1 a.2 := by
  obtain ⟨-, hset, hkept⟩ := t.call_spec c
  refine ext_setting fun flag => ?_
  by_cases hflag : flag = a.1
  · subst hflag
    rw [hset a.1 a.2 h, t.setting_put_self h.2]
  · have hno : ∀ v, ¬ c.Sets flag v := fun v hv => hflag (Flag.name_injective (hv.1.trans h.1.symm))
    rw [hkept flag hno, t.setting_put_of_ne hflag]

theorem applyAll_sets (t : Thresholds) {calls : List FlagText} {order : List (Flag × Setting)}
    (h : List.Forall₂ (fun c a => c.Sets a.1 a.2) calls order) : (t.applyAll calls).2 = t.putAll order := by
  induction h generalizing t with
  | nil => rfl
  | cons hfirst hrest ih =>
    rw [applyAll_cons, call_sets t hfirst]
    exact ih _

end Thresholds

namespace FlagTable

/-- The text of an object, however it is written, whose members are assignments to different flags in any
order, is a flag table. It gives an engine the thresholds that the same assignments give in text form, made
in any order on the initial thresholds. An object with a member that no flag is named like, with two members
of the same name, or with a value that is no value of its flag, is no flag table at all. A flag table is
read back from its own compact text, and from thresholds. -/
theorem ofText_agrees {members : List (String × Source)} {text : String}
    (h : (Source.object members).IsText text) :
    (∀ assignments, (assignments.map Prod.fst).Nodup → InAnyOrder Assigns members assignments →
        ∃ table, ofText text = .ok table ∧ ∀ (e : Engine) (calls : List FlagText),
          InAnyOrder (fun c a => c.Sets a.1 a.2) calls assignments →
          (e.configure table).settings.thresholds = (({} : Thresholds).applyAll calls).2) ∧
      ((∃ m ∈ members, ∀ flag : Flag, flag.name ≠ m.1) ∨ ¬ (members.map Prod.fst).Nodup ∨
          (∃ m ∈ members, ∃ flag : Flag, flag.name = m.1 ∧ ∀ v, ¬ flag.grammar.Encodes m.2 v) →
        ∃ error, ofText text = .error error) ∧
      ∀ table : FlagTable, ofText table.toJson.compact = .ok table ∧
        ofThresholds table.toThresholds = table := by
  refine ⟨?_, ?_, fun table => ⟨table.ofText_compact, table.ofThresholds_toThresholds⟩⟩
  · rintro assignments hnodup ⟨order, hperm, horder⟩
    have hnodup' : (order.map Prod.fst).Nodup := (hperm.map Prod.fst).nodup_iff.mpr hnodup
    refine ⟨_, ofText_of_assigns h horder hnodup', ?_⟩
    rintro e calls ⟨order', hperm', hcalls⟩
    have hsame := Thresholds.putAll_perm {} (hperm.trans hperm'.symm) hnodup'
    exact hsame.trans (Thresholds.applyAll_sets {} hcalls).symm
  · intro hbad
    rcases ofText_object h with ⟨table, order, -, horder, hnodup, -⟩ | ⟨herror, -⟩
    · rcases hbad with ⟨m, hm, hunknown⟩ | hrepeated | ⟨m, hm, flag, hname, hvalue⟩
      · obtain ⟨a, -, ha⟩ := exists_mem_of_forall₂ horder hm
        exact (hunknown a.1 ha.1).elim
      · rw [names_of_assigns horder] at hrepeated
        exact (hrepeated (hnodup.map fun _ _ => Flag.name_injective)).elim
      · obtain ⟨a, -, ha⟩ := exists_mem_of_forall₂ horder hm
        have hsame : a.1 = flag := Flag.name_injective (ha.1.trans hname.symm)
        exact (hvalue a.2 (hsame ▸ ha.2)).elim
    · exact herror

/-- A level and a truth, one of them for a name with an escape in it, against the same two as texts of
calls, the other way round. -/
theorem ofText_agrees_escaped :
    let text := " \x7b \"v\" : 7,\"\\u006cogtostderr\":false\x7d"
    let members : List (String × Source) := [("v", .number (.ofNat 7)), ("logtostderr", .bool false)]
    let assignments : List (Flag × Setting) := [(.toConsole, .truth false), (.verbosity, .level 7)]
    let calls : List FlagText := [⟨"logtostderr", "F"⟩, ⟨"v", "+007"⟩]
    (Source.object members).IsText text ∧ (assignments.map Prod.fst).Nodup ∧
      InAnyOrder Assigns members assignments ∧
      InAnyOrder (fun c a => FlagText.Sets c a.1 a.2) calls assignments ∧
      ∃ table, ofText text = .ok table ∧ ∀ e : Engine,
        (e.configure table).settings.thresholds = (({} : Thresholds).applyAll calls).2 := by
  intro text members assignments calls
  have hspells : Spells "logtostderr".toList
      ('\\' :: 'u' :: (['0', '0', '6', 'c'] ++ "ogtostderr".toList.flatMap stringChar)) :=
    .unit rfl rfl (spells_flatMap_stringChar "ogtostderr".toList)
  have hname : Quotes "logtostderr" "\"\\u006cogtostderr\"".toList := ⟨_, rfl, hspells⟩
  have hlevel : Padded (fun cs => (Source.number (.ofNat 7)).WrittenAs cs) " 7".toList :=
    ⟨[' '], ['7'], [], rfl, by simp [Blanks, isBlank], (NumberText.chars_ofNat 7).symm, nofun⟩
  have hverbosity : Padded (Quotes "v") " \"v\" ".toList :=
    ⟨[' '], stringChars "v", [' '], rfl, by simp [Blanks, isBlank], quotes_stringChars "v",
      by simp [Blanks, isBlank]⟩
  have htext : (Source.object members).IsText text := by
    refine ⟨[' '], _, [], ?_, by simp [Blanks, isBlank], ⟨_, rfl, _, _, _, rfl, hverbosity, hlevel, _, _,
      rfl, .of_bare hname, .of_bare rfl⟩, nofun⟩
    decide
  have hmembers : InAnyOrder Assigns members assignments :=
    ⟨[(.verbosity, .level 7), (.toConsole, .truth false)], .swap _ _ _,
      .cons ⟨rfl, NumberText.natural?_ofNat 7⟩ (.cons ⟨rfl, rfl⟩ .nil)⟩
  have hcalls : InAnyOrder (fun c a => FlagText.Sets c a.1 a.2) calls assignments := by
    refine ⟨assignments, .refl _, .cons ⟨rfl, ?_⟩ (.cons ⟨rfl, ?_⟩ .nil)⟩
    · exact (Grammar.read_eq_ok_iff .truth "" "F" (.truth false)).mp (by decide)
    · exact (Grammar.read_eq_ok_iff .level "" "+007" (.level 7)).mp (by decide +kernel)
  have hnodup : (assignments.map Prod.fst).Nodup := by decide
  obtain ⟨table, hread, hsame⟩ := (ofText_agrees htext).1 assignments hnodup hmembers
  exact ⟨htext, hnodup, hmembers, hcalls, table, hread, fun e => hsame e calls hcalls⟩

end FlagTable

end Logline
