import Mathlib.Data.List.Chain
import Stencil.Data.Json
import Stencil.Proofs.Config.Sheet

/-!
# Sheets as nested records

A sheet is laid out as a record of records, with spaces of any kind and number before each of its
pieces (`Layout`).

A piece is scanned as its token (`scanToken_chars`).  Only a number could go on with what comes
after it, so no two values may stand next to each other (`Piece.Apart`); in a record, a mark stands
after every value.  The tokens of a record read as the record of what its members read as
(`reads_record`), so that the text reads as the object of the sheet (`Layout.read_text`).

The reader of values returns with each value the proof that it has used up tokens, and the type of a
result names the tokens that it was read from.  `Parsed.taken` forgets both, so that a result can be
compared with a value and a rest alone.
-/

namespace Stencil

namespace Json

open Sheet

/-! ## Layouts -/

/-- The pieces of a text, each of which is a token. -/
inductive Piece where
  | beginRecord
  | endRecord
  | colon
  | comma
  | value (v : Value)

namespace Piece

/-- A name is spelled as a string. -/
def name (n : Name) : Piece :=
  .value (.word n.toWord)

/-- A piece as it is spelled. -/
def chars : Piece → List Char
  | .beginRecord => ['\x7b']
  | .endRecord => ['\x7d']
  | .colon => [':']
  | .comma => [',']
  | .value v => v.chars

/-- The token that a piece is. -/
def token : Piece → Token
  | .beginRecord => .beginRecord
  | .endRecord => .endRecord
  | .colon => .colon
  | .comma => .comma
  | .value (.word w) => .string w.text
  | .value v => .scalar v.data

/-- Whether a piece is no value. -/
def isMark : Piece → Bool
  | .value _ => false
  | _ => true

/-- Two pieces that can stand next to each other. -/
def Apart (p q : Piece) : Prop :=
  p.isMark = true ∨ q.isMark = true

end Piece

section Record

variable {α : Type} (name : α → Name) (inside : α → List Piece)

/-- The pieces of a member of a record: its name, a colon, and those of its value. -/
def memberPieces (m : α) : List Piece :=
  .name (name m) :: .colon :: inside m

/-- The pieces of the members of a record, with commas between the members. -/
def membersPieces (members : List α) : List Piece :=
  [Piece.comma].intercalate (members.map (memberPieces name inside))

/-- The pieces of a record. -/
def recordPieces (members : List α) : List Piece :=
  .beginRecord :: (membersPieces name inside members ++ [.endRecord])

end Record

/-- The pieces of the fields of a section. -/
def fieldsPieces (s : Sheet.Section) : List Piece :=
  recordPieces Field.name (fun f => [.value f.value]) s.fields

/-- The pieces of a sheet. -/
def pieces (sections : List Sheet.Section) : List Piece :=
  recordPieces Section.name fieldsPieces sections

/-- Spaces between two pieces. -/
structure Space where
  chars : List Char
  space : ∀ c ∈ chars, isSpace c = true

/-- A text of some pieces, with the next space before each of them and after the last. -/
def spell (spaces : Nat → Space) : List Piece → List Char
  | [] => (spaces 0).chars
  | p :: rest => (spaces 0).chars ++ (p.chars ++ spell (fun n => spaces (n + 1)) rest)

/-- A sheet with its spaces. -/
structure Layout where
  sections : List Sheet.Section
  spaces : Nat → Space

/-- The text of a layout. -/
def Layout.text (l : Layout) : String :=
  String.ofList (spell l.spaces (pieces l.sections))

/-! ## Pieces are scanned as tokens -/

section Scan

variable {c : Char} {rest : List Char}

lemma scanString_cons_of_isPlain (h : isPlain c = true) :
    scanString (c :: rest) = consChar c (scanString rest) := by
  have backslash : c ≠ Quoted.backslash := ne_of_isPlain h (by decide)
  have quote : c ≠ Quoted.quote := ne_of_isPlain h (by decide)
  have printable : ¬c.toNat < 32 := Nat.not_lt.2 (isPlain_iff.1 h).2.1
  rw [scanString]
  · rw [if_neg quote, if_neg (not_or.2 ⟨printable, backslash⟩)]
  all_goals
    intros
    exact absurd ‹c = _› backslash

lemma scanString_word (w : Word) :
    scanString (w.chars ++ Quoted.quote :: rest) = some (w.chars, rest) := by
  obtain ⟨chars, plain⟩ := w
  show scanString (chars ++ _) = some (chars, _)
  induction chars with
  | nil => rfl
  | cons c others ih =>
    obtain ⟨first, plain⟩ := List.forall_mem_cons.1 plain
    rw [List.cons_append, scanString_cons_of_isPlain first, ih plain]
    rfl

/-- What begins a number is no mark. -/
lemma mark?_of_begins (h : Literal.begins c = true) : mark? c = none := by
  have apart : ∀ mark ∈ ['\x7b', '\x7d', '[', ']', ':', ','], c ≠ mark :=
    forall_ne_of_all h (by decide)
  simp only [List.forall_mem_cons] at apart
  simp only [mark?, apart, if_false]

/-- What begins a number begins no word. -/
lemma scanWord_of_begins (h : Literal.begins c = true) : scanWord (c :: rest) = none := by
  have apart : ∀ letter ∈ ['t', 'f', 'n'], letter ≠ c := fun letter hl =>
    (forall_ne_of_all h (by decide) letter hl).symm
  simp only [List.forall_mem_cons] at apart
  simp [scanWord, words, apart]

lemma scanNumber_integer (negative : Bool) (magnitude : Nat) (ends : EndsRun Literal.goesOn rest) :
    scanNumber (Literal.integerChars negative magnitude ++ rest) =
      some ((Value.integer negative magnitude).data, rest) := by
  rw [scanNumber, Literal.scan_integer negative magnitude ends]
  dsimp only
  split
  · next zero => exact absurd zero (Literal.toDigits_ne_zero_cons magnitude _)
  · rw [Literal.value_integer]
    rfl

/-- A value is scanned where no number goes on after it. -/
lemma scanToken_value (v : Value) (ends : EndsRun Literal.goesOn rest) :
    scanToken (v.chars ++ rest) = some ((Piece.value v).token, rest) := by
  match v with
  | .truth true | .truth false | .null => rfl
  | .integer negative magnitude =>
    -- its first character is no mark, no quotation mark and begins no word, so a number is scanned
    have number := scanNumber_integer negative magnitude ends
    obtain ⟨c, others, written, begins⟩ := Literal.begins_head_integerChars negative magnitude
    have no_quote : c ≠ Quoted.quote :=
      forall_ne_of_all begins (by decide) Quoted.quote (List.mem_singleton_self _)
    rw [written, List.cons_append] at number
    rw [Value.chars, written, List.cons_append, scanToken, mark?_of_begins begins]
    dsimp only
    rw [if_neg no_quote, scanWord_of_begins begins, number]
    rfl
  | .word w =>
    -- the closing quotation mark ends the scan, since a word has none
    have scanned : scanString ((w.chars ++ [Quoted.quote]) ++ rest) = some (w.chars, rest) := by
      rw [List.append_assoc]
      exact scanString_word w
    have no_mark : mark? Quoted.quote = none := rfl
    rw [Value.chars, List.cons_append, scanToken, no_mark]
    dsimp only
    rw [if_pos rfl, scanned]
    rfl

/-- **A piece is scanned as its token** where no number goes on after it. -/
lemma scanToken_chars (p : Piece) (ends : p.isMark = true ∨ EndsRun Literal.goesOn rest) :
    scanToken (p.chars ++ rest) = some (p.token, rest) := by
  match p, ends with
  | .beginRecord, _ | .endRecord, _ | .colon, _ | .comma, _ => rfl
  | .value v, .inr ends => exact scanToken_value v ends

lemma tokens?_spaces (s : Space) : tokens? (s.chars ++ rest) = tokens? rest := by
  obtain ⟨chars, space⟩ := s
  show tokens? (chars ++ rest) = _
  induction chars with
  | nil => rfl
  | cons c others ih =>
    obtain ⟨first, space⟩ := List.forall_mem_cons.1 space
    rw [List.cons_append, tokens?, if_pos first]
    exact ih space

/-! ### Texts of pieces -/

lemma isSpace_of_not_blank (h : Blank.isBlank c = false) : isSpace c = false := by
  have visible : (!Blank.isBlank c) = true := by rw [h, Bool.not_false]
  have apart : ∀ space ∈ [' ', '\t', '\n', '\r'], c ≠ space :=
    forall_ne_of_all (p := fun c => !Blank.isBlank c) visible (by decide)
  simp only [List.forall_mem_cons] at apart
  simp [isSpace, apart]

/-- A piece has a character to be seen at its front. -/
lemma Piece.exists_visible (p : Piece) :
    ∃ c others, p.chars = c :: others ∧ isSpace c = false := by
  match p with
  | .beginRecord | .endRecord | .colon | .comma => exact ⟨_, _, rfl, by decide⟩
  | .value v =>
    obtain ⟨c, others, written⟩ := List.exists_cons_of_ne_nil v.chars_ne_nil
    refine ⟨c, others, written, isSpace_of_not_blank ?_⟩
    exact v.not_blank_of_mem_chars c (written ▸ List.mem_cons_self)

lemma tokens?_chars (p : Piece) (ends : p.isMark = true ∨ EndsRun Literal.goesOn rest) :
    tokens? (p.chars ++ rest) = (tokens? rest).map (p.token :: ·) := by
  obtain ⟨c, others, written, visible⟩ := p.exists_visible
  have scanned := scanToken_chars p ends
  rw [written, List.cons_append] at scanned ⊢
  rw [tokens?, if_neg (ne_true_of_eq_false visible)]
  split
  · next token after taken =>
    rw [scanned] at taken
    obtain ⟨rfl, rfl⟩ := Prod.mk.inj (Option.some.inj taken)
    rfl
  · next none =>
    rw [scanned] at none
    cases none

lemma goesOn_of_isSpace (h : isSpace c = true) : Literal.goesOn c = false := by
  simp only [isSpace, Bool.or_eq_true, beq_iff_eq] at h
  rcases h with ((rfl | rfl) | rfl) | rfl <;> decide

lemma endsRun_spaces (s : Space) (ends : EndsRun Literal.goesOn rest) :
    EndsRun Literal.goesOn (s.chars ++ rest) := by
  obtain ⟨chars, space⟩ := s
  cases chars with
  | nil => exact ends
  | cons c others => exact endsRun_cons.2 (goesOn_of_isSpace (space c List.mem_cons_self))

lemma endsRun_mark {p : Piece} (h : p.isMark = true) :
    EndsRun Literal.goesOn (p.chars ++ rest) := by
  match p with
  | .beginRecord | .endRecord | .colon | .comma => exact endsRun_cons.2 (by decide)

/-- After a piece, a number goes on neither with a space nor with a mark. -/
lemma ends_spell {p : Piece} {ps : List Piece} (apart : (p :: ps).IsChain Piece.Apart)
    (spaces : Nat → Space) : p.isMark = true ∨ EndsRun Literal.goesOn (spell spaces ps) := by
  cases ps with
  | nil =>
    have ends := endsRun_spaces (spaces 0) (endsRun_nil (p := Literal.goesOn))
    rw [List.append_nil] at ends
    exact .inr ends
  | cons q rest =>
    refine (List.isChain_cons_cons.1 apart).1.imp_right fun mark => ?_
    exact endsRun_spaces (spaces 0) (endsRun_mark mark)

/-- **A text of pieces has their tokens**, if no two values stand next to each other. -/
lemma tokens?_spell {ps : List Piece} (apart : ps.IsChain Piece.Apart) (spaces : Nat → Space) :
    tokens? (spell spaces ps) = some (ps.map Piece.token) := by
  induction ps generalizing spaces with
  | nil =>
    rw [spell, ← List.append_nil (spaces 0).chars, tokens?_spaces, tokens?]
    rfl
  | cons p rest ih =>
    rw [spell, tokens?_spaces, tokens?_chars p (ends_spell apart _), ih apart.tail]
    rfl

end Scan

/-! ## The pieces of a record -/

section Record

variable {α : Type} {name : α → Name} {inside : α → List Piece}

lemma isChain_member {m : α} (apart : (inside m).IsChain Piece.Apart) :
    (memberPieces name inside m).IsChain Piece.Apart :=
  .cons_cons (.inr rfl) (apart.cons fun _ _ => .inl rfl)

/-- Pieces stay apart with a mark between them. -/
lemma isChain_append_mark {before after : List Piece} {mark : Piece} (h : mark.isMark = true)
    (apart : before.IsChain Piece.Apart) (apart' : after.IsChain Piece.Apart) :
    (before ++ mark :: after).IsChain Piece.Apart :=
  List.isChain_append.2 ⟨apart, apart'.cons fun _ _ => .inl h, fun _ _ _ next =>
    .inr (Option.some.inj next ▸ h)⟩

lemma membersPieces_cons_cons (m m' : α) (rest : List α) :
    membersPieces name inside (m :: m' :: rest) =
      memberPieces name inside m ++ .comma :: membersPieces name inside (m' :: rest) := by
  rw [membersPieces, List.map_cons, List.map_cons, List.intercalate_cons_cons, List.append_assoc]
  rfl

lemma membersPieces_singleton (m : α) :
    membersPieces name inside [m] = memberPieces name inside m := by
  rw [membersPieces, List.map_cons, List.map_nil, List.intercalate_singleton]

lemma isChain_members {members : List α} (apart : ∀ m ∈ members, (inside m).IsChain Piece.Apart) :
    (membersPieces name inside members).IsChain Piece.Apart := by
  induction members with
  | nil => exact .nil
  | cons m rest ih =>
    obtain ⟨first, others⟩ := List.forall_mem_cons.1 apart
    cases rest with
    | nil =>
      rw [membersPieces_singleton]
      exact isChain_member first
    | cons m' rest =>
      rw [membersPieces_cons_cons]
      exact isChain_append_mark rfl (isChain_member first) (ih others)

lemma isChain_record {members : List α} (apart : ∀ m ∈ members, (inside m).IsChain Piece.Apart) :
    (recordPieces name inside members).IsChain Piece.Apart :=
  .cons (isChain_append_mark rfl (isChain_members apart) .nil) fun _ _ => .inl rfl

end Record

/-- In a sheet, no two values stand next to each other. -/
lemma isChain_pieces (sections : List Sheet.Section) : (pieces sections).IsChain Piece.Apart :=
  isChain_record fun _ _ => isChain_record fun _ _ => .singleton _

/-! ## What tokens read as -/

/-- What was read, and the tokens after it. -/
def Parsed.taken {α : Type} {ts : List Token} (p : Parsed α ts) : α × List Token :=
  (p.value, p.rest)

lemma exists_of_taken {α : Type} {ts rest : List Token} {read : Option (Parsed α ts)} {value : α}
    (h : read.map Parsed.taken = some (value, rest)) :
    ∃ shorter, read = some ⟨value, rest, shorter⟩ := by
  obtain ⟨⟨value, after, shorter⟩, rfl, taken⟩ := Option.map_eq_some_iff.1 h
  cases taken
  exact ⟨shorter, rfl⟩

/-- Some pieces that read as a value, whatever comes after them.  The rest is arbitrary because a
value has no end of its own: what comes after it is the next member of a record, or the end of
one. -/
def Reads (ps : List Piece) (d : Data) : Prop :=
  ∀ rest, (value? (ps.map Piece.token ++ rest)).map Parsed.taken = some (d, rest)

lemma reads_value (v : Value) : Reads [.value v] v.data := by
  intro rest
  match v with
  | .truth b | .null | .integer _ _ | .word _ =>
    rw [List.map_singleton, List.singleton_append]
    unfold value?
    rfl

section Record

variable {α : Type} {name : α → Name} {inside : α → List Piece} {data : α → Data}
variable {m m' : α} {members : List α} {rest : List Token}

variable (name inside) in
/-- The tokens of the members of a record up to its end, and those after it. -/
def membersTokens (members : List α) (rest : List Token) : List Token :=
  (membersPieces name inside members).map Piece.token ++ .endRecord :: rest

lemma membersTokens_singleton :
    membersTokens name inside [m] rest =
      .string (name m).text :: .colon ::
        ((inside m).map Piece.token ++ .endRecord :: rest) := by
  rw [membersTokens, membersPieces_singleton]
  rfl

lemma membersTokens_cons_cons :
    membersTokens name inside (m :: m' :: members) rest =
      .string (name m).text :: .colon :: ((inside m).map Piece.token ++
        .comma :: membersTokens name inside (m' :: members) rest) := by
  rw [membersTokens, membersPieces_cons_cons, List.map_append, List.append_assoc]
  rfl

/-- Members do not begin with the end of their record. -/
lemma membersTokens_cons_ne (after : List Token) :
    membersTokens name inside (m :: members) rest ≠ .endRecord :: after := by
  cases members with
  | nil =>
    rw [membersTokens_singleton]
    exact fun same => nomatch (List.cons.inj same).1
  | cons m' members =>
    rw [membersTokens_cons_cons]
    exact fun same => nomatch (List.cons.inj same).1

lemma recordPieces_tokens :
    (recordPieces name inside members).map Piece.token ++ rest =
      .beginRecord :: membersTokens name inside members rest := by
  rw [recordPieces, List.map_cons, List.map_append, List.cons_append, List.append_assoc]
  rfl

/-- The members of a record read one after another, the last one up to the end of the record. -/
lemma fields?_members (reads : ∀ m' ∈ m :: members, Reads (inside m') (data m')) :
    (fields? (membersTokens name inside (m :: members) rest)).map Parsed.taken =
      some ((m :: members).map fun m' => ((name m').text, data m'), rest) := by
  -- the last member ends its record and each other one is followed by a comma, so the induction is
  -- on the members after the first
  induction members generalizing m with
  | nil =>
    obtain ⟨shorter, read⟩ := exists_of_taken (reads m List.mem_cons_self (.endRecord :: rest))
    rw [membersTokens_singleton, fields?, read]
    rfl
  | cons m' members ih =>
    obtain ⟨first, others⟩ := List.forall_mem_cons.1 reads
    obtain ⟨shorter, read⟩ :=
      exists_of_taken (first (.comma :: membersTokens name inside (m' :: members) rest))
    obtain ⟨shorter', further⟩ := exists_of_taken (ih others)
    rw [membersTokens_cons_cons, fields?, read]
    dsimp only
    rw [further]
    rfl

/-- **The pieces of a record read as the record of its members.** -/
lemma reads_record (reads : ∀ m ∈ members, Reads (inside m) (data m)) :
    Reads (recordPieces name inside members)
      (.record (Keyed.ofPairs (members.map fun m => ((name m).text, data m)))) := by
  intro rest
  rw [recordPieces_tokens]
  cases members with
  | nil =>
    show (value? (.beginRecord :: .endRecord :: rest)).map _ = _
    rw [value?]
    rfl
  | cons m members =>
    have all : (fields? (membersTokens name inside (m :: members) rest)).map Parsed.taken = _ :=
      fields?_members reads
    obtain ⟨shorter, read⟩ := exists_of_taken all
    rw [value?, read]
    · rfl
    · exact membersTokens_cons_ne

end Record

/-- The pieces of a sheet read as its object. -/
lemma reads_pieces (sections : List Sheet.Section) : Reads (pieces sections) (object sections) :=
  reads_record fun _ _ => reads_record fun f _ => reads_value f.value

/-! ## Texts -/

namespace Layout

/-- **A sheet is read back from its layout.** -/
theorem read?_text (l : Layout) : read? l.text = some (object l.sections) := by
  have scanned := tokens?_spell (isChain_pieces l.sections) l.spaces
  have all := reads_pieces l.sections []
  rw [List.append_nil] at all
  obtain ⟨shorter, read⟩ := exists_of_taken all
  rw [read?, text, String.toList_ofList, scanned]
  dsimp only
  rw [read]

end Layout

end Json

end Stencil
