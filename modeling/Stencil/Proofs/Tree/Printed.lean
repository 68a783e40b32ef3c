import Stencil.Proofs.Number.Text
import Stencil.Proofs.Tree.Words
import Stencil.Tree.Likeness
import Stencil.Tree.Printer

/-!
# Printed trees are told apart

Trees have the same text exactly when they are alike (`text_faithful`), as long as their numbers can
be told from their texts.

The text of a tree is read from the front.  Names and scalars are words or quoted texts, which show
where they end once a separator follows (`Lexeme.append_inj`).  A property is known by the mark
after its name, further entries by the blank before a word or a quoted text, children and the end of
a node by the brace that stands there instead.  So each part is recovered together with all that
comes after it (`alike_of_append_eq`), and nothing has to be known of where a node stands.

No depth is counted on the way.  A text is compared together with an arbitrary rest, of which only
the first characters are known (`EndsNode`, `EndsEntries`), and the two rests come out as equal,
which is what the next part then starts from.
-/

namespace Stencil

/-! ## Legible trees -/

/-- Whether a scalar can be told from its text: it can, unless it is a number that cannot. -/
def Scalar.isLegible : Scalar → Bool
  | .number x => x.isLegible
  | _ => true

/-- Whether the values of some entries can be told from their texts. -/
def Entry.allLegible (entries : List Entry) : Bool :=
  entries.all fun e => e.value.inner.isLegible

namespace Node

mutual

/-- Whether all values of a tree can be told from their texts. -/
def isLegible : Node → Bool
  | ⟨_, entries, children, _⟩ => Entry.allLegible entries && allLegible children

/-- Whether all values of a list of trees can be told from their texts. -/
def allLegible : List Node → Bool
  | [] => true
  | n :: rest => n.isLegible && allLegible rest

end

end Node

/-! ## Words and quoted texts -/

/-- What names and scalars are printed as. -/
inductive Lexeme where
  | word (chars : List Char)
  | quoted (chars : List Char)
deriving DecidableEq

/-- The characters of words: those of bare names and those of numbers. -/
def isWordChar (c : Char) : Bool :=
  isBareRest c || Number.isNumberChar c

namespace Lexeme

/-- A lexeme as it is printed. -/
def text : Lexeme → List Char
  | word chars => chars
  | quoted chars => Quoted.encode chars

/-- Words are not empty and hold only characters of words. -/
def WellFormed : Lexeme → Prop
  | word chars => chars ≠ [] ∧ ∀ c ∈ chars, isWordChar c = true
  | quoted _ => True

/-- A lexeme begins with a character of words or with a quotation mark. -/
lemma exists_text_eq_cons {l : Lexeme} (wf : l.WellFormed) :
    ∃ c rest, l.text = c :: rest ∧ (isWordChar c || c == Quoted.quote) = true := by
  cases l with
  | word chars =>
    obtain ⟨c, rest, rfl⟩ := List.exists_cons_of_ne_nil wf.1
    exact ⟨c, rest, rfl, by rw [wf.2 c List.mem_cons_self]; rfl⟩
  | quoted chars => exact ⟨Quoted.quote, _, rfl, by decide⟩

/-- A word is no quoted text, since no character of words is a quotation mark. -/
lemma word_ne_quoted {chars chars' rest rest' : List Char} (wf : (word chars).WellFormed) :
    (word chars).text ++ rest ≠ (quoted chars').text ++ rest' := by
  obtain ⟨c, chars, rfl⟩ := List.exists_cons_of_ne_nil wf.1
  intro same
  have first : c = Quoted.quote := (List.cons.inj same).1
  exact absurd (wf.2 c List.mem_cons_self) (by rw [first]; decide)

/-- A lexeme shows where it ends, if what follows is no character of words. -/
lemma append_inj {l l' : Lexeme} {rest rest' : List Char} (wf : l.WellFormed) (wf' : l'.WellFormed)
    (ends : EndsRun isWordChar rest) (ends' : EndsRun isWordChar rest')
    (same : l.text ++ rest = l'.text ++ rest') : l = l' ∧ rest = rest' := by
  cases l with
  | word chars =>
    cases l' with
    | word chars' =>
      obtain ⟨rfl, rest⟩ := append_inj_of_run wf.2 wf'.2 ends ends' same
      exact ⟨rfl, rest⟩
    | quoted chars' => exact absurd same (word_ne_quoted wf)
  | quoted chars =>
    cases l' with
    | word chars' => exact absurd same.symm (word_ne_quoted wf')
    | quoted chars' =>
      obtain ⟨rfl, rest⟩ := Quoted.append_inj_encode same
      exact ⟨rfl, rest⟩

end Lexeme

/-! ## Names -/

/-- The lexeme of a name. -/
def nameLexeme (name : String) : Lexeme :=
  if isBareName name then .word name.toList else .quoted name.toList

/-- A name is printed as its lexeme. -/
lemma toList_nameText (name : String) : (nameText name).toList = (nameLexeme name).text := by
  unfold nameText nameLexeme
  split
  · rfl
  · exact String.toList_ofList

/-- The characters of bare names are characters of words. -/
lemma isWordChar_of_isBareRest {c : Char} (h : isBareRest c = true) : isWordChar c = true := by
  rw [isWordChar, h, Bool.true_or]

/-- A bare name may have any of its first characters later on. -/
lemma isBareRest_of_isBareStart {c : Char} (h : isBareStart c = true) : isBareRest c = true := by
  unfold isBareStart at h
  unfold isBareRest Char.isAlphanum
  grind

/-- The lexeme of a name is well formed: a name that is printed as a word is not empty. -/
lemma wellFormed_nameLexeme (name : String) : (nameLexeme name).WellFormed := by
  unfold nameLexeme
  split
  · next bare =>
    unfold isBareName at bare
    split at bare
    · cases bare
    · next c rest written =>
      simp only [Bool.and_eq_true, List.all_eq_true] at bare
      rw [written]
      refine ⟨List.cons_ne_nil _ _, List.forall_mem_cons.2 ⟨?_, fun c h => ?_⟩⟩
      · exact isWordChar_of_isBareRest (isBareRest_of_isBareStart bare.1.1)
      · exact isWordChar_of_isBareRest (bare.1.2 c h)
  · trivial

/-- A name is known by its lexeme, which also tells whether it is quoted. -/
lemma nameLexeme_inj {name name' : String} (same : nameLexeme name = nameLexeme name') :
    name = name' := by
  unfold nameLexeme at same
  split at same <;> split at same
  · exact String.toList_inj.1 (Lexeme.word.inj same)
  · cases same
  · cases same
  · exact String.toList_inj.1 (Lexeme.quoted.inj same)

/-! ## Scalars -/

namespace Scalar

/-- The lexeme of a scalar. -/
def lexeme : Scalar → Lexeme
  | .null => .word "null".toList
  | .boolean true => .word "true".toList
  | .boolean false => .word "false".toList
  | .number x => .word x.chars
  | .string s => .quoted s.toList

variable {v w : Scalar}

/-- A legible scalar is printed as its lexeme. -/
lemma toList_text (legible : v.isLegible = true) : v.text.toList = v.lexeme.text := by
  rcases v with _ | (_ | _) | x | s
  · rfl
  · rfl
  · rfl
  · have finite : x.isFinite = true := (Bool.and_eq_true_iff.1 legible).1
    rw [text, if_pos finite]
    exact String.toList_ofList
  · exact String.toList_ofList

/-- The lexeme of a legible scalar is well formed. -/
lemma wellFormed_lexeme (legible : v.isLegible = true) : v.lexeme.WellFormed := by
  rcases v with _ | (_ | _) | x | s
  · exact ⟨by decide, List.all_eq_true.1 (by decide)⟩
  · exact ⟨by decide, List.all_eq_true.1 (by decide)⟩
  · exact ⟨by decide, List.all_eq_true.1 (by decide)⟩
  · obtain ⟨c, rest, written, -⟩ := Number.exists_chars_eq_cons legible
    refine ⟨written ▸ List.cons_ne_nil _ _, fun c h => ?_⟩
    rw [isWordChar, Number.isNumberChar_chars legible c h, Bool.or_true]
  · trivial

/-- No number is printed as a word that begins with a letter. -/
lemma lexeme_number_ne {x : Number} (legible : x.isLegible = true) {c : Char} {rest : List Char}
    (letter : (c.isDigit || c == '-') = false) : Lexeme.word x.chars ≠ .word (c :: rest) := by
  obtain ⟨d, rest', written, digit⟩ := Number.exists_chars_eq_cons legible
  rw [written]
  rintro ⟨⟩
  rw [letter] at digit
  cases digit

/-- A legible scalar is known by its lexeme. -/
lemma lexeme_inj (hv : v.isLegible = true) (hw : w.isLegible = true)
    (same : v.lexeme = w.lexeme) : v = w := by
  rcases v with _ | (_ | _) | x | s <;> rcases w with _ | (_ | _) | y | t
  -- two numbers and two strings are told apart by their characters; of different kinds, one is a
  -- quoted text, or one is a number and the other a word that begins with a letter, or both are
  -- words of their own
  case number.number => rw [Number.eq_of_chars_eq hv hw (Lexeme.word.inj same)]
  case string.string => rw [String.toList_inj.1 (Lexeme.quoted.inj same)]
  case number.null | number.boolean.false | number.boolean.true =>
    exact absurd same (lexeme_number_ne hv (by decide))
  case null.number | boolean.false.number | boolean.true.number =>
    exact absurd same.symm (lexeme_number_ne hw (by decide))
  all_goals first | rfl | exact absurd same (by decide) | cases same

end Scalar

/-! ## Entries -/

/-- The characters that separate what is printed. -/
def isSeparator (c : Char) : Bool :=
  c == ' ' || c == ';' || c == '\n'

/-- A text that begins with a separator, if it is not empty. -/
def EndsEntry (text : List Char) : Prop :=
  EndsRun (fun c => !isSeparator c) text

/-- A text ends an entry if its first character is a separator. -/
lemma endsEntry_cons {c : Char} {rest : List Char} :
    EndsEntry (c :: rest) ↔ isSeparator c = true := by
  rw [EndsEntry, endsRun_cons, Bool.not_eq_false']

/-- Separators are no characters of words. -/
lemma EndsEntry.endsWord {rest : List Char} (ends : EndsEntry rest) :
    EndsRun isWordChar rest := by
  cases rest with
  | nil => exact endsRun_nil
  | cons c rest =>
    have separator := endsEntry_cons.1 ends
    simp only [isSeparator, Bool.or_eq_true, beq_iff_eq] at separator
    apply endsRun_cons.2
    rcases separator with (rfl | rfl) | rfl <;> decide

namespace Entry

variable {e f : Entry} {es fs : List Entry} {rest rest' : List Char}

/-- An entry up to its value. -/
def nameChars (e : Entry) : List Char :=
  match e.name with
  | some name => (nameLexeme name.inner).text ++ ['=']
  | none => []

/-- A legible entry is printed as its name, if it has one, and the lexeme of its value. -/
lemma toList_text (legible : e.value.inner.isLegible = true) :
    e.text.toList = e.nameChars ++ e.value.inner.lexeme.text := by
  rcases e with ⟨_ | name, value, span⟩
  · exact Scalar.toList_text legible
  · rw [text, nameChars]
    simp only [String.toList_append, toList_nameText, Scalar.toList_text legible]
    rfl

/-- A bare argument is not followed by the mark of a property. -/
lemma name_ne_value {name : String} {v : Scalar} (legible : v.isLegible = true)
    (ends : EndsEntry rest') :
    (nameLexeme name).text ++ ('=' :: rest) ≠ v.lexeme.text ++ rest' := by
  intro same
  obtain ⟨-, rfl⟩ := Lexeme.append_inj (wellFormed_nameLexeme name)
    (Scalar.wellFormed_lexeme legible) (endsRun_cons.2 (by decide)) ends.endsWord same
  exact absurd (endsEntry_cons.1 ends) (by decide)

/-- A value is recovered from the front of a text. -/
lemma value_inj {v w : Scalar} (hv : v.isLegible = true) (hw : w.isLegible = true)
    (ends : EndsEntry rest) (ends' : EndsEntry rest')
    (same : v.lexeme.text ++ rest = w.lexeme.text ++ rest') : v = w ∧ rest = rest' := by
  obtain ⟨lexemes, rest⟩ := Lexeme.append_inj (Scalar.wellFormed_lexeme hv)
    (Scalar.wellFormed_lexeme hw) ends.endsWord ends'.endsWord same
  exact ⟨Scalar.lexeme_inj hv hw lexemes, rest⟩

/-- An entry is recovered from the front of a text, together with what comes after it. -/
lemma alike_of_append_eq (he : e.value.inner.isLegible = true) (hf : f.value.inner.isLegible = true)
    (ends : EndsEntry rest) (ends' : EndsEntry rest')
    (same : e.text.toList ++ rest = f.text.toList ++ rest') :
    e.alike f = true ∧ rest = rest' := by
  rw [toList_text he, toList_text hf, List.append_assoc, List.append_assoc] at same
  -- two bare arguments or two properties are read part by part; one of each differ in the mark
  -- after the name
  rcases e with ⟨_ | name, v, span⟩ <;> rcases f with ⟨_ | name', w, span'⟩
  · obtain ⟨value, rest⟩ := value_inj he hf ends ends' same
    exact ⟨by simpa [alike] using value, rest⟩
  · refine absurd same.symm ?_
    rw [nameChars, List.append_assoc]
    exact name_ne_value he ends
  · refine absurd same ?_
    rw [nameChars, List.append_assoc]
    exact name_ne_value hf ends'
  · simp only [nameChars, List.append_assoc, List.cons_append, List.nil_append] at same
    obtain ⟨names, further⟩ := Lexeme.append_inj (wellFormed_nameLexeme name.inner)
      (wellFormed_nameLexeme name'.inner) (endsRun_cons.2 (by decide))
      (endsRun_cons.2 (by decide)) same
    obtain ⟨value, rest⟩ := value_inj he hf ends ends' (List.cons.inj further).2
    exact ⟨by simpa [alike, nameLexeme_inj names] using value, rest⟩

/-- Entries that are alike are printed alike. -/
lemma text_of_alike (alike : e.alike f = true) : e.text = f.text := by
  rcases e with ⟨_ | name, v, span⟩ <;> rcases f with ⟨_ | name', w, span'⟩ <;>
    simp_all [Entry.alike, text]

end Entry

/-! ## What follows a node

A node ends before a semicolon, a line feed, a blank with the closing brace of its parent, or the
end of the text.  Its entries end there too, or before a blank with the opening brace of its
children.  All of these begin with a separator, so the last lexeme ends as well. -/

/-- The texts that stand after a node: nothing, a sibling, the next line or the end of its
parent. -/
inductive EndsNode : List Char → Prop
  | nothing : EndsNode []
  | sibling (rest : List Char) : EndsNode (';' :: rest)
  | line (rest : List Char) : EndsNode ('\n' :: rest)
  | parent (rest : List Char) : EndsNode (' ' :: '\x7d' :: rest)

/-- The texts that stand after the entries of a node: its children or what follows it. -/
inductive EndsEntries : List Char → Prop
  | children (rest : List Char) : EndsEntries (' ' :: '\x7b' :: rest)
  | node {rest : List Char} : EndsNode rest → EndsEntries rest

/-- What ends a node ends an entry. -/
lemma EndsNode.endsEntry {rest : List Char} (ends : EndsNode rest) : EndsEntry rest := by
  cases ends with
  | nothing => exact endsRun_nil
  | sibling | line | parent => exact endsEntry_cons.2 (by decide)

/-- What ends the entries of a node ends the last of them. -/
lemma EndsEntries.endsEntry {rest : List Char} (ends : EndsEntries rest) : EndsEntry rest := by
  cases ends with
  | children => exact endsEntry_cons.2 (by decide)
  | node ends => exact ends.endsEntry

/-- A blank before a word or a quoted text belongs to an entry. -/
lemma not_endsEntries {l : Lexeme} (wf : l.WellFormed) (rest : List Char) :
    ¬ EndsEntries (' ' :: (l.text ++ rest)) := by
  obtain ⟨c, chars, written, begins⟩ := Lexeme.exists_text_eq_cons wf
  rw [written]
  rintro (_ | ⟨⟨⟩⟩)
  · exact absurd begins (by decide)
  · exact absurd begins (by decide)

namespace Entry

variable {e f : Entry} {es fs : List Entry} {rest rest' : List Char}

/-- A legible entry begins with a lexeme. -/
lemma exists_lexeme (legible : e.value.inner.isLegible = true) :
    ∃ (l : Lexeme) (further : List Char), l.WellFormed ∧ e.text.toList = l.text ++ further := by
  rw [toList_text legible]
  rcases e with ⟨_ | name, v, span⟩
  · exact ⟨_, [], Scalar.wellFormed_lexeme legible, by simp [nameChars]⟩
  · exact ⟨_, _, wellFormed_nameLexeme name.inner, List.append_assoc ..⟩

/-- Entries are printed with a blank before each. -/
lemma toList_entriesText_cons (e : Entry) (rest : List Entry) :
    (entriesText (e :: rest)).toList = ' ' :: (e.text.toList ++ (entriesText rest).toList) := by
  rw [entriesText, String.toList_append, String.toList_append]
  rfl

/-- Where an entry stands, the entries have not ended. -/
lemma not_endsEntries_cons (legible : allLegible (e :: es) = true) (further : List Char) :
    ¬ EndsEntries ((entriesText (e :: es)).toList ++ further) := by
  obtain ⟨l, rest, wf, written⟩ := exists_lexeme (List.all_eq_true.1 legible e List.mem_cons_self)
  rw [toList_entriesText_cons, written, List.cons_append, List.append_assoc, List.append_assoc]
  exact not_endsEntries wf _

/-- After an entry there is a separator: the blank before the next one, or what ends the entries. -/
lemma endsEntry_entriesText (es : List Entry) (ends : EndsEntries rest) :
    EndsEntry ((entriesText es).toList ++ rest) := by
  cases es with
  | nil => exact ends.endsEntry
  | cons e es =>
    rw [toList_entriesText_cons]
    exact endsEntry_cons.2 (by decide)

/-- Entries are recovered from the front of a text, together with what comes after them. -/
lemma allAlike_of_append_eq (hes : allLegible es = true) (hfs : allLegible fs = true)
    (ends : EndsEntries rest) (ends' : EndsEntries rest')
    (same : (entriesText es).toList ++ rest = (entriesText fs).toList ++ rest') :
    allAlike es fs = true ∧ rest = rest' := by
  induction es generalizing fs with
  -- one list is at its end here, so the text of the other would have to begin as what ends the
  -- entries
  | nil =>
    cases fs with
    | nil => exact ⟨rfl, same⟩
    | cons f fs =>
      have none : rest = (entriesText (f :: fs)).toList ++ rest' := same
      exact absurd (none ▸ ends) (not_endsEntries_cons hfs rest')
  | cons e es ih =>
    cases fs with
    | nil =>
      have none : (entriesText (e :: es)).toList ++ rest = rest' := same
      exact absurd (none ▸ ends') (not_endsEntries_cons hes rest)
    | cons f fs =>
      obtain ⟨he, hes⟩ := List.forall_mem_cons.1 (List.all_eq_true.1 hes)
      obtain ⟨hf, hfs⟩ := List.forall_mem_cons.1 (List.all_eq_true.1 hfs)
      rw [toList_entriesText_cons, toList_entriesText_cons, List.cons_append, List.cons_append,
        List.append_assoc, List.append_assoc] at same
      obtain ⟨alike, further⟩ := alike_of_append_eq he hf (endsEntry_entriesText es ends)
        (endsEntry_entriesText fs ends') (List.cons.inj same).2
      obtain ⟨allAlike, rest⟩ := ih (List.all_eq_true.2 hes) (List.all_eq_true.2 hfs) further
      exact ⟨by rw [Entry.allAlike, alike, allAlike]; rfl, rest⟩

/-- Entries that are alike are printed alike. -/
lemma entriesText_of_allAlike (alike : allAlike es fs = true) :
    entriesText es = entriesText fs := by
  induction es generalizing fs with
  | nil =>
    cases fs with
    | nil => rfl
    | cons => cases alike
  | cons e es ih =>
    cases fs with
    | nil => cases alike
    | cons f fs =>
      obtain ⟨first, further⟩ := Bool.and_eq_true_iff.1 alike
      rw [entriesText, entriesText, text_of_alike first, ih further]

end Entry

/-! ## Nodes -/

namespace Node

/-- The children of a node as they are printed. -/
def childrenChars : List Node → List Char
  | [] => []
  | first :: rest =>
    ' ' :: '\x7b' :: ' ' ::
      (first.text.toList ++ ((siblingsText rest).toList ++ [' ', '\x7d']))

/-- A node is printed as its name, its entries and its children. -/
lemma toList_text (n : Node) :
    n.text.toList =
      (nameLexeme n.name.inner).text ++ ((entriesText n.entries).toList ++
        childrenChars n.children) := by
  rcases n with ⟨name, entries, _ | ⟨first, rest⟩, span⟩
  · rw [text, String.toList_append, toList_nameText, childrenChars, List.append_nil]
  · rw [text]
    simp only [String.toList_append, toList_nameText, childrenChars, List.append_assoc]
    rfl

/-- Siblings are printed with a semicolon before each. -/
lemma toList_siblingsText_cons (n : Node) (rest : List Node) :
    (siblingsText (n :: rest)).toList =
      ';' :: ' ' :: (n.text.toList ++ (siblingsText rest).toList) := by
  rw [siblingsText, String.toList_append, String.toList_append]
  rfl

/-- After a node stands the next sibling or the end of the parent. -/
lemma endsNode_siblings (nodes : List Node) (rest : List Char) :
    EndsNode ((siblingsText nodes).toList ++ (' ' :: '\x7d' :: rest)) := by
  cases nodes with
  | nil =>
    rw [siblingsText]
    exact .parent rest
  | cons n nodes =>
    rw [toList_siblingsText_cons]
    exact .sibling _

/-- After the entries stand the children or what comes after the node. -/
lemma endsEntries_children (children : List Node) {rest : List Char} (ends : EndsNode rest) :
    EndsEntries (childrenChars children ++ rest) := by
  cases children with
  | nil => exact .node ends
  | cons first others => exact .children _

/-- A node is legible if its entries and its children are. -/
lemma legible_iff (n : Node) :
    n.isLegible = true ↔ Entry.allLegible n.entries = true ∧ allLegible n.children = true := by
  cases n
  rw [isLegible, Bool.and_eq_true]

/-- Some nodes are legible if the first is and the others are. -/
lemma allLegible_cons_iff {n : Node} {rest : List Node} :
    allLegible (n :: rest) = true ↔ n.isLegible = true ∧ allLegible rest = true := by
  rw [allLegible, Bool.and_eq_true]

variable {a b : Node} {rest rest' : List Char}

/-- Nodes are alike if their names are the same and their entries and their children are alike. -/
lemma alike_iff :
    a.alike b = true ↔ a.name.inner = b.name.inner ∧ Entry.allAlike a.entries b.entries = true ∧
      allAlike a.children b.children = true := by
  cases a
  rw [alike, Bool.and_eq_true, Bool.and_eq_true, beq_iff_eq, and_assoc]

/-- The name and the entries of a node are recovered, and what comes after them is left. -/
lemma entries_of_append_eq (ha : a.isLegible = true) (hb : b.isLegible = true)
    (ends : EndsNode rest) (ends' : EndsNode rest')
    (same : a.text.toList ++ rest = b.text.toList ++ rest') :
    a.name.inner = b.name.inner ∧ Entry.allAlike a.entries b.entries = true ∧
      childrenChars a.children ++ rest = childrenChars b.children ++ rest' := by
  have after := endsEntries_children a.children ends
  have after' := endsEntries_children b.children ends'
  rw [toList_text, toList_text, List.append_assoc, List.append_assoc, List.append_assoc,
    List.append_assoc] at same
  obtain ⟨names, same⟩ := Lexeme.append_inj (wellFormed_nameLexeme _) (wellFormed_nameLexeme _)
    (Entry.endsEntry_entriesText a.entries after).endsWord
    (Entry.endsEntry_entriesText b.entries after').endsWord same
  obtain ⟨entries, same⟩ := Entry.allAlike_of_append_eq ((legible_iff a).1 ha).1
    ((legible_iff b).1 hb).1 after after' same
  exact ⟨nameLexeme_inj names, entries, same⟩

/-- Children are not what comes after a node. -/
lemma childrenChars_append_ne (first : Node) (others : List Node) (ends : EndsNode rest') :
    childrenChars (first :: others) ++ rest ≠ rest' := by
  intro same
  subst same
  exact nomatch ends

mutual

/-- A node is recovered from the front of a text, together with all that comes after it. -/
theorem alike_of_append_eq : (a : Node) → ∀ {b : Node} {rest rest' : List Char},
    a.isLegible = true → b.isLegible = true → EndsNode rest → EndsNode rest' →
    a.text.toList ++ rest = b.text.toList ++ rest' → a.alike b = true ∧ rest = rest'
  | ⟨name, entries, [], span⟩, b, rest, rest', ha, hb, ends, ends', same => by
    obtain ⟨names, own, same⟩ := entries_of_append_eq ha hb ends ends' same
    rcases children : b.children with _ | ⟨first, others⟩
    · rw [children] at same
      exact ⟨alike_iff.2 ⟨names, own, by rw [children]; rfl⟩, same⟩
    · rw [children] at same
      exact absurd same.symm (childrenChars_append_ne first others ends)
  | ⟨name, entries, first :: others, span⟩, b, rest, rest', ha, hb, ends, ends', same => by
    obtain ⟨names, own, same⟩ := entries_of_append_eq ha hb ends ends' same
    have below := ((legible_iff _).1 ha).2
    have below' := ((legible_iff b).1 hb).2
    rcases children : b.children with _ | ⟨first', others'⟩
    · rw [children] at same
      exact absurd same (childrenChars_append_ne first others ends')
    · rw [children] at same below'
      obtain ⟨hfirst, hothers⟩ := allLegible_cons_iff.1 below
      obtain ⟨hfirst', hothers'⟩ := allLegible_cons_iff.1 below'
      -- both have children: the opening brace and the blanks are the same, then the first child is
      -- read, then its siblings up to the closing brace
      simp only [childrenChars, List.cons_append, List.append_assoc, List.nil_append,
        List.cons.injEq, true_and] at same
      obtain ⟨alike, same⟩ := alike_of_append_eq first hfirst hfirst' (endsNode_siblings _ _)
        (endsNode_siblings _ _) same
      obtain ⟨allAlike, rest⟩ := allAlike_of_append_eq others hothers hothers' same
      have both : Node.allAlike (first :: others) (first' :: others') = true := by
        rw [Node.allAlike, alike, allAlike]
        rfl
      exact ⟨alike_iff.2 ⟨names, own, by rw [children]; exact both⟩, rest⟩

/-- Further siblings are recovered from the text up to the end of their parent. -/
theorem allAlike_of_append_eq : (as : List Node) → ∀ {bs : List Node} {rest rest' : List Char},
    allLegible as = true → allLegible bs = true →
    (siblingsText as).toList ++ (' ' :: '\x7d' :: rest) =
      (siblingsText bs).toList ++ (' ' :: '\x7d' :: rest') →
    allAlike as bs = true ∧ rest = rest'
  | [], [], rest, rest', _, _, same => by
    simp only [siblingsText, String.toList_empty, List.nil_append, List.cons.injEq,
      true_and] at same
    exact ⟨rfl, same⟩
  -- where further siblings follow there is a semicolon, where the parent ends there is a blank
  | [], b :: bs, rest, rest', _, _, same => by
    rw [toList_siblingsText_cons] at same
    exact absurd (List.cons.inj same).1 (by decide)
  | a :: as, [], rest, rest', _, _, same => by
    rw [toList_siblingsText_cons] at same
    exact absurd (List.cons.inj same).1 (by decide)
  | a :: as, b :: bs, rest, rest', has, hbs, same => by
    obtain ⟨ha, has⟩ := allLegible_cons_iff.1 has
    obtain ⟨hb, hbs⟩ := allLegible_cons_iff.1 hbs
    simp only [toList_siblingsText_cons, List.cons_append, List.append_assoc, List.cons.injEq,
      true_and] at same
    obtain ⟨alike, same⟩ := alike_of_append_eq a ha hb (endsNode_siblings _ _)
      (endsNode_siblings _ _) same
    obtain ⟨allAlike, rest⟩ := allAlike_of_append_eq as has hbs same
    refine ⟨?_, rest⟩
    rw [Node.allAlike, alike, allAlike]
    rfl

end

mutual

/-- Nodes alike are printed alike. -/
theorem text_of_alike : (a : Node) → ∀ {b : Node}, a.alike b = true → a.text = b.text
  | ⟨name, entries, [], span⟩, ⟨name', entries', children', span'⟩, h => by
    obtain ⟨names, own, below⟩ := alike_iff.1 h
    cases children' with
    | nil =>
      rw [text, text]
      exact congrArg₂ (· ++ ·) (congrArg nameText names) (Entry.entriesText_of_allAlike own)
    | cons => cases below
  | ⟨name, entries, first :: others, span⟩, ⟨name', entries', children', span'⟩, h => by
    obtain ⟨names, own, below⟩ := alike_iff.1 h
    cases children' with
    | nil => cases below
    | cons first' others' =>
      obtain ⟨one, further⟩ := Bool.and_eq_true_iff.1 below
      have names : name.inner = name'.inner := names
      rw [text, text, names, Entry.entriesText_of_allAlike own, text_of_alike first one,
        siblingsText_of_allAlike others further]

/-- Siblings alike are printed alike. -/
theorem siblingsText_of_allAlike : (as : List Node) → ∀ {bs : List Node},
    allAlike as bs = true → siblingsText as = siblingsText bs
  | [], [], _ => rfl
  | a :: as, b :: bs, h => by
    obtain ⟨one, further⟩ := Bool.and_eq_true_iff.1 h
    rw [siblingsText, siblingsText, text_of_alike a one, siblingsText_of_allAlike as further]

end

/-- Lists of nodes are alike when they have the same length and are alike pairwise. -/
lemma allAlike_iff_forall₂ {as bs : List Node} :
    allAlike as bs = true ↔ List.Forall₂ (fun a b => a.alike b = true) as bs := by
  induction as generalizing bs with
  | nil => cases bs <;> simp [allAlike]
  | cons a as ih => cases bs <;> simp [allAlike, ih]

/-! ## Documents

A document joins its nodes with line feeds.  Put before the first node as well, these make the text
a list of lines, which is read like a list of siblings. -/

/-- Nodes as they are printed after another one, each on a line. -/
def lines : List Node → List Char
  | [] => []
  | n :: rest => '\n' :: (n.text.toList ++ lines rest)

/-- After a node of a document stands the next line, or nothing. -/
lemma endsNode_lines (nodes : List Node) : EndsNode (lines nodes) := by
  cases nodes with
  | nil => exact .nothing
  | cons n rest => exact .line _

/-- A document is printed as its lines, without the line feed before the first. -/
lemma lines_eq_cons_toList_text {nodes : List Node} (some_node : nodes ≠ []) (span : Span) :
    lines nodes = '\n' :: (Document.text ⟨nodes, span⟩).toList := by
  induction nodes with
  | nil => exact absurd rfl some_node
  | cons n rest ih =>
    cases rest with
    | nil => simp [lines, Document.text]
    | cons m rest =>
      have further : (Document.text ⟨n :: m :: rest, span⟩).toList =
          n.text.toList ++ '\n' :: (Document.text ⟨m :: rest, span⟩).toList := by
        simp [Document.text, String.toList_intercalate]
      rw [lines, ih (List.cons_ne_nil m rest), further]

/-- No node is printed as the empty text. -/
lemma text_ne_empty (n : Node) : n.text.toList ≠ [] := by
  obtain ⟨c, rest, written, -⟩ :=
    Lexeme.exists_text_eq_cons (wellFormed_nameLexeme n.name.inner)
  rw [toList_text, written]
  exact List.cons_ne_nil _ _

/-- The nodes of a document are recovered from its lines. -/
lemma allAlike_of_lines_eq {as bs : List Node} (has : allLegible as = true)
    (hbs : allLegible bs = true) (same : lines as = lines bs) : allAlike as bs = true := by
  induction as generalizing bs with
  | nil =>
    cases bs with
    | nil => rfl
    | cons => cases same
  | cons a as ih =>
    cases bs with
    | nil => cases same
    | cons b bs =>
      obtain ⟨ha, has⟩ := allLegible_cons_iff.1 has
      obtain ⟨hb, hbs⟩ := allLegible_cons_iff.1 hbs
      obtain ⟨alike, further⟩ := alike_of_append_eq a ha hb (endsNode_lines as)
        (endsNode_lines bs) (List.cons.inj same).2
      rw [allAlike, alike, ih has hbs further]
      rfl

/-- Nodes that are alike are printed on the same lines. -/
lemma lines_of_allAlike {as bs : List Node} (alike : allAlike as bs = true) :
    lines as = lines bs := by
  induction as generalizing bs with
  | nil =>
    cases bs with
    | nil => rfl
    | cons => cases alike
  | cons a as ih =>
    cases bs with
    | nil => cases alike
    | cons b bs =>
      obtain ⟨one, further⟩ := Bool.and_eq_true_iff.1 alike
      rw [lines, lines, text_of_alike a one, ih further]

end Node

namespace Document

/-- No document but the empty one is printed as the empty text. -/
lemma text_eq_empty_iff (d : Document) : d.text = "" ↔ d.nodes = [] := by
  rcases d with ⟨_ | ⟨n, rest⟩, span⟩
  · exact iff_of_true rfl rfl
  · refine iff_of_false (fun none => ?_) (List.cons_ne_nil _ _)
    have written := Node.lines_eq_cons_toList_text (List.cons_ne_nil n rest) span
    rw [none] at written
    exact Node.text_ne_empty n (List.append_eq_nil_iff.1 (List.cons.inj written).2).1

/-- Documents are printed alike if their lines are the same. -/
lemma text_eq_iff_lines_eq (d d' : Document) :
    d.text = d'.text ↔ Node.lines d.nodes = Node.lines d'.nodes := by
  have empty := text_eq_empty_iff d
  have empty' := text_eq_empty_iff d'
  -- the line feed before the first line is missing in the text of a document, so the empty
  -- document is compared on its own
  rcases d with ⟨_ | ⟨n, rest⟩, span⟩ <;> rcases d' with ⟨_ | ⟨n', rest'⟩, span'⟩
  · exact iff_of_true rfl rfl
  · refine iff_of_false (fun same => List.cons_ne_nil n' rest' (empty'.1 (same ▸ rfl))) ?_
    exact nofun
  · refine iff_of_false (fun same => List.cons_ne_nil n rest (empty.1 (same ▸ rfl))) ?_
    exact nofun
  · rw [Node.lines_eq_cons_toList_text (List.cons_ne_nil _ _) span,
      Node.lines_eq_cons_toList_text (List.cons_ne_nil _ _) span', List.cons.injEq, eq_self,
      true_and, String.toList_inj]

end Document

/-- **Trees are printed alike exactly when they are alike**, and so are documents.  Names and
strings are arbitrary; numbers have to be finite and other than the negative zero. -/
theorem text_faithful :
    (∀ a b : Node, a.isLegible = true → b.isLegible = true →
      (a.text = b.text ↔ a.alike b = true)) ∧
    ∀ d d' : Document, Node.allLegible d.nodes = true → Node.allLegible d'.nodes = true →
      (d.text = d'.text ↔
        List.Forall₂ (fun a b => Node.alike a b = true) d.nodes d'.nodes) := by
  constructor
  · intro a b ha hb
    refine ⟨fun same => ?_, Node.text_of_alike a⟩
    exact (Node.alike_of_append_eq a ha hb .nothing .nothing (by rw [same])).1
  · intro d d' hd hd'
    rw [Document.text_eq_iff_lines_eq, ← Node.allAlike_iff_forall₂]
    exact ⟨Node.allAlike_of_lines_eq hd hd', Node.lines_of_allAlike⟩

/-- A node whose name, strings and property names are made of the marks of printed trees. -/
def Node.ofMarks (name : String) : Node :=
  ⟨⟨name, .none⟩,
    [⟨some ⟨"true", .none⟩, ⟨.boolean true, .none⟩, .none⟩,
      ⟨none, ⟨.string "a=\"b\" \x7b\n", .none⟩, .none⟩,
      ⟨none, ⟨.number (.ofInt (-25)), .none⟩, .none⟩],
    [.bare "null" [], .naming "\x7d;" name], .none⟩

/-- A name that looks like a node with children is told from a bare one, here as the name of a node
and as a string. -/
theorem marks_are_told_apart :
    (Node.ofMarks "a").isLegible = true ∧ (Node.ofMarks "a \x7b b; c \x7d").isLegible = true ∧
      (Node.ofMarks "a").text ≠ (Node.ofMarks "a \x7b b; c \x7d").text ∧
      (Document.mk [.bare "a" [], .bare "b" []] .none).text ≠
        (Document.mk [.bare "a\nb" []] .none).text := by
  have legible : (Node.ofMarks "a").isLegible = true := by decide +kernel
  have legible' : (Node.ofMarks "a \x7b b; c \x7d").isLegible = true := by decide +kernel
  refine ⟨legible, legible', fun same => ?_, fun same => ?_⟩
  · exact absurd ((text_faithful.1 _ _ legible legible').1 same) (by decide +kernel)
  · have both := (text_faithful.2 (.mk [.bare "a" [], .bare "b" []] .none)
      (.mk [.bare "a\nb" []] .none) (by decide) (by decide)).1 same
    cases both
    contradiction

end Stencil
