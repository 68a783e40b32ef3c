import Stencil.Config.Record
import Stencil.Proofs.Keyed
import Stencil.Proofs.Number.Integer
import Stencil.Text.Blank
import Stencil.Text.Quoted

/-!
# Sheets of settings

A sheet is what a configuration file says, whatever its format: sections one after another, with
the fields of each.  Names and values are plain words, truth values, null and integers, which are
spelled alike in every format (`Value.chars`).

A section that is given again takes the place of the earlier one, and so does a field inside a
section: `value?` finds the last field of a name in the last section of a name.  The object of a
sheet has just these values (`value?_object`), and a configuration depends on nothing else
(`Config.ofData_object_congr`).
-/

namespace Stencil

namespace Sheet

/-! ## Words -/

/-- The characters with a meaning of their own in one of the formats. -/
def marks : List Char :=
  [':', '#', Quoted.quote, Quoted.backslash]

/-- Whether a character is plain: it is not blank, no control character and no mark.  The letters of
every script are plain, and so are underscores and hyphens. -/
def isPlain (c : Char) : Bool :=
  !Blank.isBlank c && 32 ≤ c.toNat && !marks.contains c

section Plain

variable {c : Char}

lemma isPlain_iff : isPlain c = true ↔
    Blank.isBlank c = false ∧ 32 ≤ c.toNat ∧ c ∉ marks := by
  simp [isPlain, and_assoc]

lemma not_blank_of_isPlain (h : isPlain c = true) : Blank.isBlank c = false :=
  (isPlain_iff.1 h).1

lemma ne_of_isPlain {mark : Char} (h : isPlain c = true) (hm : mark ∈ marks) : c ≠ mark := by
  rintro rfl
  exact (isPlain_iff.1 h).2.2 hm

lemma not_blank_of_isDigit (h : c.isDigit = true) : Blank.isBlank c = false := by
  simp only [Char.isDigit, ge_iff_le, Bool.and_eq_true, decide_eq_true_eq,
    UInt32.le_iff_toNat_le] at h
  have bounds : 48 ≤ c.toNat ∧ c.toNat ≤ 57 := h
  simp only [Blank.isBlank, CodePoints.holds, Blank.ranges, List.any_cons, List.any_nil,
    Bool.or_false, Bool.or_eq_false_iff, Bool.and_eq_false_iff, decide_eq_false_iff_not]
  omega

end Plain

/-- A word of plain characters. -/
structure Word where
  chars : List Char
  plain : ∀ c ∈ chars, isPlain c = true

/-- The text of a word. -/
def Word.text (w : Word) : String :=
  String.ofList w.chars

/-- The name of a section or a field: a word that is not empty and does not name a base. -/
structure Name extends Word where
  nonempty : chars ≠ []
  ordinary : String.ofList chars ≠ Data.baseName

namespace Name

lemma not_blank (n : Name) : ∀ c ∈ n.chars, Blank.isBlank c = false :=
  fun c h => not_blank_of_isPlain (n.plain c h)

lemma text_ne_baseName (n : Name) : n.text ≠ Data.baseName :=
  n.ordinary

end Name

/-! ## Values -/

/-- The value of a field. -/
inductive Value where
  | truth (b : Bool)
  | null
  | integer (negative : Bool) (magnitude : Nat)
  | word (w : Word)

namespace Value

/-- What a value is. -/
def data : Value → Data
  | .truth b => .boolean b
  | .null => .null
  | .integer negative magnitude => .number (.ofFraction negative magnitude 1)
  | .word w => .string w.text

/-- A value as it is spelled.  Words are quoted; integers have no needless zeros. -/
def chars : Value → List Char
  | .truth true => "true".toList
  | .truth false => "false".toList
  | .null => "null".toList
  | .integer negative magnitude => Literal.integerChars negative magnitude
  | .word w => Quoted.quote :: (w.chars ++ [Quoted.quote])

lemma chars_ne_nil (v : Value) : v.chars ≠ [] := by
  match v with
  | .truth true | .truth false | .null => decide
  | .integer negative magnitude =>
    exact List.append_ne_nil_of_right_ne_nil _ Nat.toDigits_ne_nil
  | .word w => exact List.cons_ne_nil _ _

/-- No blank stands in a value. -/
lemma not_blank_of_mem_chars (v : Value) : ∀ c ∈ v.chars, Blank.isBlank c = false := by
  match v with
  | .truth true | .truth false | .null => exact forall_eq_false_of_all (by decide)
  | .integer negative magnitude =>
    refine List.forall_mem_append.2 ⟨?_, fun c h => ?_⟩
    · cases negative <;> exact forall_eq_false_of_all (by decide)
    · exact not_blank_of_isDigit (Literal.isDigit_of_mem_toDigits h)
  | .word w =>
    refine List.forall_mem_cons.2 ⟨by decide, List.forall_mem_append.2 ⟨fun c h => ?_, ?_⟩⟩
    · exact not_blank_of_isPlain (w.plain c h)
    · exact forall_eq_false_of_all (by decide)

end Value

/-! ## Sections -/

/-- A name with a value. -/
structure Field where
  name : Name
  value : Value

/-- A name with some fields. -/
structure Section where
  name : Name
  fields : List Field

/-- The field under the text of its name. -/
def Field.pair (f : Field) : String × Data :=
  (f.name.text, f.value.data)

/-- The record of some fields; of fields of one name, the last counts. -/
def record (fields : List Field) : Data :=
  .record (Keyed.ofPairs (fields.map Field.pair))

/-- The section under the text of its name. -/
def Section.pair (s : Section) : String × Data :=
  (s.name.text, record s.fields)

/-- The nested object of some sections; of sections of one name, the last counts. -/
def object (sections : List Section) : Data :=
  .record (Keyed.ofPairs (sections.map Section.pair))

/-- The value of the last field of a name in the last section of a name. -/
def value? (sections : List Section) (outer inner : String) : Option Value :=
  (sections.filter fun s => s.name.text == outer).getLast?.bind fun s =>
    (s.fields.filter fun f => f.name.text == inner).getLast?.map Field.value

/-- A section that is given again does not count. -/
lemma value?_cons_of_again {s again : Section} {sections : List Section} (h : again ∈ sections)
    (same : again.name.text = s.name.text) (outer inner : String) :
    value? (s :: sections) outer inner = value? sections outer inner := by
  rw [value?, value?]
  by_cases named : (s.name.text == outer) = true
  · have kept : again ∈ sections.filter fun s => s.name.text == outer :=
      List.mem_filter.2 ⟨h, by rwa [same]⟩
    rw [List.filter_cons_of_pos (p := fun s : Section => s.name.text == outer) named,
      List.getLast?_cons_of_ne_nil (List.ne_nil_of_mem kept)]
  · rw [List.filter_cons_of_neg (p := fun s : Section => s.name.text == outer) named]

/-! ## Objects -/

lemma get?_record (fields : List Field) (name : String) :
    Keyed.get? (record fields).fields name =
      (fields.filter fun f => f.name.text == name).getLast?.map fun f => f.value.data := by
  rw [record, Data.fields, Keyed.get?_ofPairs, List.filter_map, List.getLast?_map, Option.map_map]
  rfl

lemma get?_object (sections : List Section) (name : String) :
    Keyed.get? (object sections).fields name =
      (sections.filter fun s => s.name.text == name).getLast?.map fun s => record s.fields := by
  rw [object, Data.fields, Keyed.get?_ofPairs, List.filter_map, List.getLast?_map, Option.map_map]
  rfl

/-- What no pair names has no value, so that the record falls back on nothing. -/
lemma allFields_record_ofPairs {pairs : List (String × Data)}
    (ordinary : ∀ pair ∈ pairs, pair.1 ≠ Data.baseName) :
    (Data.record (Keyed.ofPairs pairs)).allFields = Keyed.ofPairs pairs := by
  have absent : Keyed.get? (Keyed.ofPairs pairs) Data.baseName = none := by
    rw [Keyed.get?_ofPairs_eq_none_iff]
    intro h
    obtain ⟨pair, hp, base⟩ := List.mem_map.1 h
    exact ordinary pair hp base
  have own : (Data.record (Keyed.ofPairs pairs)).ownFields = Keyed.ofPairs pairs := by
    refine List.filter_eq_self.2 fun field hf => ?_
    rw [bne_iff_ne]
    exact ordinary field (Keyed.mem_of_mem_ofPairs hf)
  rw [Data.allFields, own, Data.fields, absent, Option.elim_none, List.append_nil]

lemma allFields_record (fields : List Field) :
    (record fields).allFields = (record fields).fields := by
  refine allFields_record_ofPairs fun pair hp => ?_
  obtain ⟨f, _, rfl⟩ := List.mem_map.1 hp
  exact f.name.text_ne_baseName

lemma allFields_object (sections : List Section) :
    (object sections).allFields = (object sections).fields := by
  refine allFields_record_ofPairs fun pair hp => ?_
  obtain ⟨s, _, rfl⟩ := List.mem_map.1 hp
  exact s.name.text_ne_baseName

/-- **The object of a sheet has its values**: the last field of a name in the last section of a
name. -/
lemma value?_object (sections : List Section) (outer inner : String) :
    (PartialConfig.sectionOf (object sections).fields outer).get? inner =
      (value? sections outer inner).map Value.data := by
  rw [PartialConfig.sectionOf, get?_object, value?]
  cases (sections.filter fun s => s.name.text == outer).getLast? with
  | none => rfl
  | some s =>
    show Keyed.get? (record s.fields).allFields inner = _
    rw [allFields_record, get?_record, Option.bind_some, Option.map_map]
    rfl

end Sheet

/-! ## Configurations -/

/-- A configuration depends on the values of the fields in the sections, and on nothing else. -/
lemma PartialConfig.ofFields_congr {fields fields' : Keyed Data}
    (same : ∀ outer inner,
      (sectionOf fields outer).get? inner = (sectionOf fields' outer).get? inner) :
    ofFields fields = ofFields fields' := by
  simp only [ofFields, spelled?, same]

/-- Sheets with the same values give the same configuration. -/
lemma Config.ofData_object_congr {sections sections' : List Sheet.Section}
    (same : ∀ outer inner,
      Sheet.value? sections outer inner = Sheet.value? sections' outer inner) :
    ofData (Sheet.object sections) = ofData (Sheet.object sections') := by
  rw [ofData, ofFields, ofData, ofFields]
  refine congrArg default.override (PartialConfig.ofFields_congr fun outer inner => ?_)
  rw [Sheet.value?_object, Sheet.value?_object, same]

end Stencil
