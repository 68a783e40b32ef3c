import Mathlib.Data.List.Chain
import Mathlib.Data.List.Nodup
import Mathlib.Logic.Function.Basic
import Stencil.Proofs.Text.Ends
import Stencil.Text.Placeholder

/-!
# Filling placeholders one after another

A filling replaces the first occurrence of its placeholder, whether it stands in the wording or has
come with an earlier filling.  So two things decide whether a wording that is filled step by step
reads as if all its placeholders were filled at once: no filling may give an instruction
(`IsPlain`), and none may bring a placeholder that is still to be filled.

`pieces` takes a wording apart without filling anything.  `fill_render` is one step: in a wording
of separate pieces the filling of a name changes the text of this one piece.

That no filling brings a placeholder is not enough by itself: an occurrence could also begin in one
piece and end in the next.  In separate pieces this cannot happen (`isSeparate`), because every
placeholder is followed by a character that is neither a letter nor a closing brace, and a brace
opens nothing but placeholders.
-/

namespace Stencil.Placeholder

variable {name other : String} {pattern before after filling wording : List Char}

/-! ## Instructions -/

/-- The characters that make an instruction of a dollar sign before them. -/
def instructions : List Char :=
  ['$', '&', '\x60', '\x27']

/-- A filling that gives no instruction. -/
def IsPlain (filling : List Char) : Prop :=
  filling.IsChain fun c next => c = '$' → next ∉ instructions

instance : DecidablePred IsPlain :=
  fun filling => inferInstanceAs (Decidable (filling.IsChain _))

/-- Without a dollar sign there is no instruction. -/
lemma isPlain_of_not_mem (h : '$' ∉ filling) : IsPlain filling := by
  refine List.Pairwise.isChain (List.pairwise_of_forall_mem_list ?_)
  rintro c hc _ _ rfl
  exact absurd hc h

/-- Any other character than the dollar sign stands for itself. -/
lemma interpret_cons_of_ne {c : Char} (ne : c ≠ '$') (rest : List Char) :
    interpret pattern before after (c :: rest) = c :: interpret pattern before after rest := by
  rw [interpret]
  rintro mark rest rfl rfl
  exact ne rfl

/-- A filling without instructions stands for itself. -/
lemma interpret_of_isPlain (plain : IsPlain filling) :
    interpret pattern before after filling = filling := by
  induction filling with
  | nil => rfl
  | cons c rest ih =>
    have rest_eq := ih plain.tail
    by_cases dollar : c = '$'
    · subst dollar
      -- a last dollar sign has nothing after it and stands for itself; any other is followed by a
      -- character that is no mark
      cases rest with
      | nil => rfl
      | cons mark rest =>
        have not_mark : ∀ c ∈ instructions, mark ≠ c := by
          rintro c hc rfl
          exact (List.isChain_cons_cons.1 plain).1 rfl hc
        simp only [instructions, List.forall_mem_cons] at not_mark
        obtain ⟨dollar, whole, front, back, -⟩ := not_mark
        rw [interpret, if_neg dollar, if_neg whole, if_neg front, if_neg back, rest_eq]
    · rw [interpret_cons_of_ne dollar, rest_eq]

/-- A character that is no mark of an instruction keeps the texts before and after it apart. -/
lemma interpret_append_cons {c : Char} (h : c ∉ instructions) (front back : List Char) :
    interpret pattern before after (front ++ c :: back) =
      interpret pattern before after front ++ c :: interpret pattern before after back := by
  have ne : ∀ d ∈ instructions, c ≠ d := by
    rintro d hd rfl
    exact h hd
  simp only [instructions, List.forall_mem_cons] at ne
  obtain ⟨dollar, whole, front', back', -⟩ := ne
  -- the cases are those of the interpretation: four instructions, a dollar sign before something
  -- else, another character, and the end of the text
  fun_induction interpret pattern before after front with
  | case1 rest ih => simp [interpret, ih]
  | case2 rest _ ih => simp [interpret, ih]
  | case3 rest _ _ ih => simp [interpret, ih]
  | case4 rest _ _ _ ih => simp [interpret, ih]
  | case5 mark rest not_dollar not_whole not_front not_back ih =>
    rw [List.cons_append, List.cons_append, interpret, if_neg not_dollar, if_neg not_whole,
      if_neg not_front, if_neg not_back]
    exact congrArg ('$' :: ·) ih
  | case6 d rest next ih =>
    -- if the front ends with a dollar sign, this stands before `c` now, and makes no instruction
    -- with it
    by_cases last : d = '$'
    · cases rest with
      | nil =>
        rw [last, List.cons_append, List.nil_append, interpret, if_neg dollar, if_neg whole,
          if_neg front', if_neg back', interpret_cons_of_ne dollar]
        rfl
      | cons mark rest => exact (next mark rest last rfl).elim
    · rw [List.cons_append, interpret_cons_of_ne last, ih]
      rfl
  | case7 => exact interpret_cons_of_ne dollar back

/-! ## The first occurrence -/

/-- A text is cut at a pattern that does not begin any earlier. -/
lemma cut_of_first (first : ∀ late, late <:+ before → late ≠ [] →
      ¬ pattern <+: late ++ (pattern ++ after)) :
    cut pattern (before ++ (pattern ++ after)) = some (before, after) := by
  induction before with
  | nil =>
    cases pattern with
    | nil => cases after <;> rfl
    | cons c pattern =>
      have here : (c :: pattern).isPrefixOf (c :: (pattern ++ after)) = true :=
        List.isPrefixOf_iff_prefix.2 (List.prefix_append (c :: pattern) after)
      rw [List.nil_append, List.cons_append, cut, if_pos here]
      exact congrArg some (congrArg (Prod.mk []) List.drop_left)
  | cons c before ih =>
    have not_here : ¬ pattern.isPrefixOf (c :: (before ++ (pattern ++ after))) = true := fun here =>
      first (c :: before) List.suffix_rfl (List.cons_ne_nil _ _) (List.isPrefixOf_iff_prefix.1 here)
    rw [List.cons_append, cut, if_neg not_here,
      ih fun late hl => first late (hl.trans (List.suffix_cons c before))]
    rfl

/-! ## Pieces

The pieces of a wording are found in one pass from the left.  A brace that is never closed is no
placeholder, and its text is taken as it stands. -/

/-- A piece of a wording. -/
inductive Piece where
  | char (c : Char)
  | placeholder (name : String)
deriving DecidableEq

/-- A piece as it is written. -/
def Piece.written : Piece → List Char
  | .char c => [c]
  | .placeholder name => mark name.toList

/-- The pieces of a text, which may begin inside a placeholder: `opened` is what has been read of
its name. -/
def scan : Option (List Char) → List Char → List Piece
  | none, [] => []
  | none, c :: rest => if c = '\x7b' then scan (some []) rest else .char c :: scan none rest
  | some opened, [] => ('\x7b' :: opened).map .char
  | some opened, c :: rest =>
    if c = '\x7d' then .placeholder (String.ofList opened) :: scan none rest
    else scan (some (opened ++ [c])) rest

/-- The pieces of a wording. -/
def pieces (wording : List Char) : List Piece :=
  scan none wording

/-- The names of the placeholders among some pieces. -/
def placeholders (pieces : List Piece) : List String :=
  pieces.filterMap fun
    | .char _ => none
    | .placeholder name => some name

/-- The names of the placeholders are those of the pieces that are placeholders. -/
lemma mem_placeholders_iff {pieces : List Piece} :
    name ∈ placeholders pieces ↔ .placeholder name ∈ pieces := by
  constructor
  · intro h
    obtain ⟨piece, hp, found⟩ := List.mem_filterMap.1 h
    cases piece with
    | char c => cases found
    | placeholder other =>
      obtain rfl := Option.some.inj found
      exact hp
  · exact fun hp => List.mem_filterMap.2 ⟨_, hp, rfl⟩

/-- Pieces with the placeholder of each name replaced by a text, all at once. -/
def render (texts : String → List Char) (pieces : List Piece) : List Char :=
  pieces.flatMap fun
    | .char c => [c]
    | .placeholder name => texts name

/-- Rendered with every placeholder as it is written, pieces are as they are written. -/
lemma render_written (pieces : List Piece) :
    render (fun name => mark name.toList) pieces = pieces.flatMap Piece.written := by
  refine List.flatMap_congr fun piece _ => ?_
  cases piece <;> rfl

/-- **A wording is made of its pieces.** -/
theorem flatMap_written_pieces (wording : List Char) :
    (pieces wording).flatMap Piece.written = wording := by
  -- while a name is read, the brace and what was read of it are held back, so they have to be
  -- added to what is left of the text
  have along : ∀ opened, (scan opened wording).flatMap Piece.written =
      (opened.elim [] fun name => '\x7b' :: name) ++ wording := by
    induction wording with
    | nil =>
      intro opened
      cases opened with
      | none => rfl
      | some name => simp [scan, Piece.written, List.flatMap_map]
    | cons c rest ih =>
      intro opened
      cases opened with
      | none =>
        rw [scan]
        split
        · next opening => rw [ih, opening]; rfl
        · rw [List.flatMap_cons, ih]; rfl
      | some name =>
        rw [scan]
        split
        · next closing =>
          rw [List.flatMap_cons, ih, closing]
          simp [Piece.written, mark]
        · rw [ih]
          simp
  exact along none

/-! ## Separate pieces -/

/-- The characters of a placeholder after its opening brace. -/
def isInner (c : Char) : Bool :=
  c.isAlpha || c == '\x7d'

/-- Pieces that begin with no placeholder, and not with what could be the rest of one. -/
def breaksOff : List Piece → Bool
  | [] => true
  | .char c :: _ => !isInner c
  | .placeholder _ :: _ => false

/-- Pieces that cannot be mistaken for others: every brace belongs to a placeholder, the names are
letters, and the wording breaks off after each placeholder. -/
def isSeparate : List Piece → Bool
  | [] => true
  | .char c :: rest => c != '\x7b' && isSeparate rest
  | .placeholder name :: rest => name.toList.all Char.isAlpha && breaksOff rest && isSeparate rest

/-- Letters can stand in a placeholder. -/
lemma isInner_of_isAlpha {c : Char} (h : c.isAlpha = true) : isInner c = true := by
  rw [isInner, h, Bool.true_or]

/-- All that stands after the opening brace of a placeholder named by letters are inner
characters. -/
lemma isInner_of_mem {c : Char} (letters : name.toList.all Char.isAlpha = true)
    (h : c ∈ name.toList ++ ['\x7d']) : isInner c = true := by
  rcases List.mem_append.1 h with h | h
  · exact isInner_of_isAlpha (List.all_eq_true.1 letters c h)
  · rw [List.mem_singleton.1 h]
    rfl

/-- The name of a placeholder among separate pieces is made of letters. -/
lemma letters_of_isSeparate {pieces : List Piece} (separate : isSeparate pieces = true)
    (h : .placeholder name ∈ pieces) : name.toList.all Char.isAlpha = true := by
  induction pieces with
  | nil => exact absurd h List.not_mem_nil
  | cons piece rest ih =>
    cases piece with
    | char c =>
      rw [isSeparate, Bool.and_eq_true] at separate
      exact ih separate.2 ((List.mem_cons.1 h).resolve_left (by simp))
    | placeholder other =>
      simp only [isSeparate, Bool.and_eq_true] at separate
      rcases List.mem_cons.1 h with same | h
      · cases same
        exact separate.1.1
      · exact ih separate.2 h

/-- A placeholder is not found in that of another name. -/
lemma not_infix_mark (letters : name.toList.all Char.isAlpha = true)
    (letters' : other.toList.all Char.isAlpha = true) (ne : other ≠ name) :
    ¬ mark name.toList <:+: mark other.toList := by
  intro found
  -- either the two begin together, and then the closing braces end the names at the same point, or
  -- the one begins inside the other, where there is no opening brace
  rcases List.infix_cons_iff.1 found with found | found
  · obtain ⟨rest, same⟩ := (List.cons_prefix_cons.1 found).2
    rw [List.append_assoc, List.singleton_append] at same
    have ends : ∀ rest, EndsRun Char.isAlpha ('\x7d' :: rest) := fun _ => endsRun_cons.2 rfl
    have names := append_inj_of_run (List.all_eq_true.1 letters) (List.all_eq_true.1 letters')
      (ends rest) (ends []) same
    exact ne (String.toList_injective names.1.symm)
  · have inner := isInner_of_mem letters' (found.subset List.mem_cons_self)
    exact absurd inner (by decide)

/-! ## One filling

In front of the placeholder stand characters of the wording and the texts of earlier pieces.  None
of them holds an occurrence, and none can begin one that ends behind it. -/

section Step

variable {texts : String → List Char} {front back : List Piece} {rest : List Char}

lemma render_char (c : Char) (pieces : List Piece) :
    render texts (.char c :: pieces) = c :: render texts pieces :=
  rfl

lemma render_placeholder (name : String) (pieces : List Piece) :
    render texts (.placeholder name :: pieces) = texts name ++ render texts pieces :=
  rfl

lemma render_append (texts : String → List Char) (front back : List Piece) :
    render texts (front ++ back) = render texts front ++ render texts back :=
  List.flatMap_append

/-- Only the texts of the placeholders that there are matter. -/
lemma render_congr {texts' : String → List Char} {pieces : List Piece}
    (h : ∀ name ∈ placeholders pieces, texts name = texts' name) :
    render texts pieces = render texts' pieces := by
  refine List.flatMap_congr fun piece hp => ?_
  cases piece with
  | char c => rfl
  | placeholder name => exact h name (mem_placeholders_iff.2 hp)

/-- What follows a filled placeholder is not read as its rest. -/
lemma endsRun_render (breaks : breaksOff (front ++ .placeholder name :: back) = true) :
    EndsRun isInner (render texts front ++ (mark name.toList ++ rest)) := by
  cases front with
  | nil => exact endsRun_cons.2 rfl
  | cons piece front =>
    cases piece with
    | char c => exact endsRun_cons.2 ((Bool.not_eq_eq_eq_not ..).mp breaks)
    | placeholder other => cases breaks

/-- A placeholder is not begun inside a filling that does not hold it whole. -/
lemma not_prefix_of_text {text : List Char} (letters : name.toList.all Char.isAlpha = true)
    (some_text : text ≠ []) (absent : ¬ mark name.toList <+: text) (ends : EndsRun isInner rest) :
    ¬ mark name.toList <+: text ++ rest := by
  rintro ⟨tail, same⟩
  -- the placeholder would end within the text, or run over its end into what follows, which begins
  -- with no inner character
  rcases List.append_eq_append_iff.1 same with ⟨held, text_eq, -⟩ | ⟨left, mark_eq, rest_eq⟩
  · exact absent ⟨held, text_eq.symm⟩
  · cases left with
    | nil => exact absent (by rw [mark_eq, List.append_nil])
    | cons c left =>
      obtain ⟨first, text, rfl⟩ := List.exists_cons_of_ne_nil some_text
      have inside : name.toList ++ ['\x7d'] = text ++ c :: left := (List.cons.inj mark_eq).2
      have inner : isInner c = true :=
        isInner_of_mem letters (inside ▸ List.mem_append_right _ List.mem_cons_self)
      rw [rest_eq] at ends
      rw [endsRun_cons.1 ends] at inner
      cases inner

/-- The first occurrence of a placeholder is the one that stands in the wording. -/
lemma not_prefix_of_suffix_render
    (separate : isSeparate (front ++ .placeholder name :: back) = true)
    (free : ∀ other ∈ placeholders front, ¬ mark name.toList <:+: texts other)
    {late : List Char} (h : late <:+ render texts front) (some_text : late ≠ []) :
    ¬ mark name.toList <+: late ++ (mark name.toList ++ rest) := by
  have letters := letters_of_isSeparate separate
    (List.mem_append_right front (List.mem_cons_self (a := Piece.placeholder name)))
  induction front generalizing late with
  | nil => exact absurd (List.suffix_nil.1 h) some_text
  | cons piece front ih =>
    cases piece with
    | char c =>
      simp only [List.cons_append, isSeparate, Bool.and_eq_true, bne_iff_ne] at separate
      rw [render_char] at h
      rcases List.suffix_cons_iff.1 h with rfl | h
      · -- the text begins here with a character that stands for itself, and this is no opening
        -- brace
        exact fun found => separate.1 (List.cons_prefix_cons.1 found).1.symm
      · exact ih separate.2 free h some_text
    | placeholder other =>
      simp only [List.cons_append, isSeparate, Bool.and_eq_true] at separate
      have free' : ∀ other ∈ placeholders front, ¬ mark name.toList <:+: texts other :=
        fun other ho => free other (List.mem_cons_of_mem _ ho)
      rw [render_placeholder] at h
      obtain ⟨before, same⟩ := h
      -- the rest begins inside the text of this placeholder, or behind it
      rcases List.append_eq_append_iff.1 same with ⟨part, text_eq, rfl⟩ | ⟨part, -, rest_eq⟩
      · rw [List.append_assoc]
        by_cases empty : part = []
        · rw [empty] at some_text ⊢
          exact ih separate.2 free' List.suffix_rfl some_text
        · refine not_prefix_of_text letters empty ?_ (endsRun_render separate.1.2)
          intro found
          exact free other List.mem_cons_self
            (text_eq ▸ found.isInfix.trans (List.suffix_append before part).isInfix)
      · exact ih separate.2 free' ⟨part, rest_eq.symm⟩ some_text

/-- **One filling changes the text of one piece.**  The placeholder stands once among separate
pieces, no text before it brings it a second time, and the filling gives no instruction. -/
theorem fill_render {pieces : List Piece} (separate : isSeparate pieces = true)
    (once : (placeholders pieces).Nodup) (h : .placeholder name ∈ pieces)
    (unfilled : texts name = mark name.toList)
    (free : ∀ other, [other, name].Sublist (placeholders pieces) →
      ¬ mark name.toList <:+: texts other)
    (plain : IsPlain filling) :
    fill name.toList filling (render texts pieces) =
      render (Function.update texts name filling) pieces := by
  obtain ⟨front, back, rfl⟩ := List.append_of_mem h
  have names : placeholders (front ++ .placeholder name :: back) =
      placeholders front ++ name :: placeholders back := List.filterMap_append
  rw [names] at once free
  have others : name ∉ placeholders front ∧ name ∉ placeholders back := by
    rw [List.nodup_middle, List.nodup_cons, List.mem_append, not_or] at once
    exact once.1
  have free' : ∀ other ∈ placeholders front, ¬ mark name.toList <:+: texts other := by
    intro other ho
    exact free other ((List.singleton_sublist.2 ho).append
      (List.singleton_sublist.2 List.mem_cons_self))
  -- the placeholder occurs once, so to the left and to the right of it nothing changes
  have same : ∀ {pieces}, name ∉ placeholders pieces →
      render (Function.update texts name filling) pieces = render texts pieces := by
    intro pieces absent
    refine render_congr fun other ho => Function.update_of_ne ?_ _ _
    rintro rfl
    exact absent ho
  have before : render texts (front ++ .placeholder name :: back) =
      render texts front ++ (mark name.toList ++ render texts back) := by
    rw [render_append, render_placeholder, unfilled]
  have after : render (Function.update texts name filling) (front ++ .placeholder name :: back) =
      render texts front ++ (filling ++ render texts back) := by
    rw [render_append, render_placeholder, same others.1, same others.2, Function.update_self]
  -- the cut is made where the placeholder stands in the wording, since it does not occur before
  rw [before, after, fill,
    cut_of_first fun late hl some_text => not_prefix_of_suffix_render separate free' hl some_text]
  dsimp only
  rw [interpret_of_isPlain plain, List.append_assoc]

end Step

end Stencil.Placeholder
