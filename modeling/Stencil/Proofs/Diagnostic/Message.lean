import Stencil.Diagnostic.Problem
import Stencil.Proofs.Keyed
import Stencil.Proofs.Number.Text
import Stencil.Proofs.Text.Placeholder

/-!
# Messages

The message of a diagnostic is its kind's wording with the parameters filled in, one after another.
`message_make` compares it with the wording in which all placeholders are replaced at once: the
parameters are quoted verbatim, in whatever order they are given, unless one of them gives an
instruction or brings a placeholder that is filled later.  Numbers do neither.

Both exceptions occur: a name of two dollar signs is quoted as one, and a name that spells the
placeholder of the reason takes the reason's place (`message_make_not_verbatim`).

A wording is taken apart into pieces, text and placeholders by turns, and the placeholders of one
wording are all different.  Filling in a parameter is a search for the first occurrence of its
placeholder, so it goes wrong in two ways only: the placeholder is found in a text that was filled
in before, or the parameter is not taken literally.  `KeepApart` and `IsPlain` exclude the two.
-/

namespace Stencil

open Placeholder

/-! ## Wordings -/

namespace Kind

/-- The pieces of a kind's wording. -/
def pieces (k : Kind) : List Piece :=
  Placeholder.pieces k.wording.toList

/-- The names that a kind's wording has placeholders for. -/
def placeholders (k : Kind) : List String :=
  Placeholder.placeholders k.pieces

/-- Every wording has separate pieces, each of its placeholders once, and no placeholder that
begins with a digit. -/
lemma wellFormed (k : Kind) : isSeparate k.pieces = true ∧ k.placeholders.Nodup ∧
    (k.placeholders.all fun name => name.toList.head?.all fun c => !c.isDigit) = true := by
  cases k <;> decide +kernel

lemma isSeparate_pieces (k : Kind) : isSeparate k.pieces = true :=
  k.wellFormed.1

lemma nodup_placeholders (k : Kind) : k.placeholders.Nodup :=
  k.wellFormed.2.1

lemma letters_of_mem_placeholders (k : Kind) {name : String} (h : name ∈ k.placeholders) :
    name.toList.all Char.isAlpha = true :=
  letters_of_isSeparate k.isSeparate_pieces (mem_placeholders_iff.1 h)

/-- No placeholder is named by a whole number. -/
lemma index?_of_mem_placeholders {k : Kind} {name : String} (h : name ∈ k.placeholders) :
    Keyed.index? name = none := by
  have first := List.all_eq_true.1 k.wellFormed.2.2 name h
  refine Keyed.index?_eq_none fun c hc => ?_
  rw [Option.mem_def.1 hc, Option.all_some] at first
  exact (Bool.not_eq_eq_eq_not ..).mp first

end Kind

/-! ## Parameters -/

namespace Number

/-- Numbers are written without the marks that fillings are searched for. -/
lemma not_mem_chars {c : Char} (h : c = '$' ∨ c = '\x7b') (x : Number) : c ∉ x.chars := by
  have special : isNumberChar c = false := by
    rcases h with rfl | rfl <;> rfl
  by_cases legible : x.isLegible = true
  · intro mem
    rw [isNumberChar_chars legible c mem] at special
    cases special
  · rcases x with _ | negative | ⟨negative, mantissa, exponent, canonical⟩
    · rcases h with rfl | rfl <;> decide
    · cases negative <;> rcases h with rfl | rfl <;> decide
    · have zero : Number.finite negative mantissa exponent canonical = .zero true := by
        simpa [isLegible, isFinite] using legible
      rw [zero]
      rcases h with rfl | rfl <;> decide

end Number

namespace Diagnostic

/-- The text that stands for a name: its parameter's, or its placeholder as long as it has none. -/
def textOf (parameters : Keyed Parameter) (name : String) : List Char :=
  (parameters.get? name).elim (mark name.toList) fun parameter => parameter.text.toList

end Diagnostic

/-- A kind's wording with the placeholder of each parameter replaced by the parameter's text, all at
once. -/
def Kind.verbatim (k : Kind) (parameters : Keyed Parameter) : String :=
  String.ofList (render (Diagnostic.textOf parameters) k.pieces)

namespace Diagnostic

variable {k : Kind} {parameters done rest : Keyed Parameter}

/-- Two parameters of a kind, in the order in which they are filled: if the first also stands first
in the wording, it does not bring the placeholder of the second. -/
def KeepApart (k : Kind) (earlier later : String × Parameter) : Prop :=
  [earlier.1, later.1].Sublist k.placeholders →
    ∀ s, earlier.2 = .string s → ¬ mark later.1.toList <:+: s.toList

lemma KeepApart.not_infix {earlier later : String × Parameter} (h : KeepApart k earlier later)
    (order : [earlier.1, later.1].Sublist k.placeholders) :
    ¬ mark later.1.toList <:+: earlier.2.text.toList := by
  rcases kind : earlier.2 with s | x
  · exact h order s kind
  · intro found
    have brace : '\x7b' ∈ x.text.toList := found.subset List.mem_cons_self
    rw [Number.text, String.toList_ofList] at brace
    exact Number.not_mem_chars (.inr rfl) x brace

lemma isPlain_text {parameter : Parameter}
    (plain : ∀ s, parameter = .string s → IsPlain s.toList) : IsPlain parameter.text.toList := by
  cases parameter with
  | string s => exact plain s rfl
  | number x =>
    refine isPlain_of_not_mem ?_
    rw [Parameter.text, Number.text, String.toList_ofList]
    exact Number.not_mem_chars (.inl rfl) x

lemma textOf_append_singleton {name : String} {parameter : Parameter}
    (fresh : name ∉ done.names) :
    textOf (done ++ [(name, parameter)]) =
      Function.update (textOf done) name parameter.text.toList := by
  funext other
  have absent : done.get? name = none := by
    rwa [← Keyed.has_eq_false_iff, ← Bool.not_eq_true, Keyed.has_iff_mem_names]
  rw [textOf, Keyed.get?, List.lookup_append, ← Keyed.get?, ← Keyed.get?, Keyed.get?_cons]
  by_cases same : name = other
  · subst same
    rw [Function.update_self, absent, if_pos rfl]
    rfl
  · rw [Function.update_of_ne (Ne.symm same), if_neg same, textOf]
    cases done.get? other <;> rfl

/-- **The parameters are filled in verbatim, one by one.** -/
lemma fillAll_render (nodup : (Keyed.names (done ++ rest)).Nodup)
    (known : ∀ name ∈ rest.names, name ∈ k.placeholders)
    (plain : ∀ name s, (name, .string s) ∈ rest → IsPlain s.toList)
    (apart : (done ++ rest).Pairwise (KeepApart k)) :
    fillAll (String.ofList (render (textOf done) k.pieces)) rest =
      String.ofList (render (textOf (done ++ rest)) k.pieces) := by
  induction rest generalizing done with
  | nil => rw [List.append_nil]; rfl
  | cons parameter rest ih =>
    obtain ⟨name, parameter⟩ := parameter
    have fresh : name ∉ done.names := by
      rw [Keyed.names, List.map_append] at nodup
      exact fun known => (List.nodup_append.1 nodup).2.2 _ known _ List.mem_cons_self rfl
    -- up to here the parameter's placeholder stands as it is, and no text that was filled in
    -- brings another one in front of it
    have unfilled : textOf done name = mark name.toList := by
      rw [textOf, Keyed.get?_eq_none_iff.2 fresh]
      rfl
    have free : ∀ other, [other, name].Sublist k.placeholders →
        ¬ mark name.toList <:+: textOf done other := by
      intro other order
      -- what stands before it in the wording is another placeholder, or the text of a parameter
      -- filled in earlier
      rcases filled : done.get? other with _ | earlier
      · rw [textOf, filled]
        have ne : other ≠ name := by
          simpa using order.nodup k.nodup_placeholders
        exact not_infix_mark (k.letters_of_mem_placeholders (order.subset (by simp)))
          (k.letters_of_mem_placeholders (order.subset (by simp))) ne
      · rw [textOf, filled]
        have before := (List.pairwise_append.1 apart).2.2 _ (Keyed.mem_of_get? filled) _
          List.mem_cons_self
        exact before.not_infix order
    -- so the search finds it in its own place, and one step of the induction fills it in there
    have step := fill_render k.isSeparate_pieces k.nodup_placeholders
      (mem_placeholders_iff.1 (known name List.mem_cons_self)) unfilled free
      (isPlain_text fun s hs => plain name s (hs ▸ List.mem_cons_self))
    have next := @ih (done ++ [(name, parameter)])
    rw [← List.append_cons, textOf_append_singleton fresh] at next
    rw [fillAll, List.foldl_cons, ← fillAll, String.toList_ofList, step]
    exact next nodup (fun other ho => known other (List.mem_cons_of_mem _ ho))
      (fun other s hs => plain other s (List.mem_cons_of_mem _ hs)) apart

/-- Parameters that are the placeholders of a kind are filled in the order in which they are
given. -/
lemma message_make_of_supplied {span : Option Span}
    (supplied : parameters.names.Perm k.placeholders) :
    (make k (some parameters) span).message = fillAll k.wording parameters := by
  have nodup : parameters.names.Nodup := supplied.nodup_iff.2 k.nodup_placeholders
  have fields : Keyed.fieldsOfPairs parameters = parameters :=
    Keyed.fieldsOfPairs_eq_self nodup fun name h =>
      Kind.index?_of_mem_placeholders (supplied.mem_iff.1 h)
  rw [make, Option.map_some, fields, Option.getD_some]

/-- **Messages quote their parameters verbatim**, in whatever order they are given, as long as no
parameter gives an instruction and none brings the placeholder of one that is filled after it. -/
theorem message_make {parameters : List (String × Parameter)} {span : Option Span}
    (supplied : (Keyed.names parameters).Perm k.placeholders)
    (plain : ∀ name s, (name, .string s) ∈ parameters → IsPlain s.toList)
    (apart : parameters.Pairwise (KeepApart k)) :
    (make k (some parameters) span).message = k.verbatim parameters := by
  have nodup : (Keyed.names parameters).Nodup := supplied.nodup_iff.2 k.nodup_placeholders
  have unfilled : String.ofList (render (textOf []) k.pieces) = k.wording := by
    have written := render_written k.pieces
    rw [Kind.pieces, flatMap_written_pieces] at written
    rw [← String.ofList_toList (s := k.wording), ← written]
    rfl
  rw [message_make_of_supplied supplied, ← unfilled]
  exact fillAll_render nodup (fun _ h => supplied.mem_iff.1 h) plain apart

/-- A reason that spells the placeholder of the name, given before the name. -/
def reserved : List (String × Parameter) :=
  [("reason", .string "\x7bname\x7d is reserved"), ("name", .string "box$")]

/-- The name is filled in where it belongs, and the reason keeps its braces. -/
theorem message_make_reserved :
    (Keyed.names reserved).Perm Kind.malformedDeclaration.placeholders ∧
      (make .malformedDeclaration (some reserved) none).message =
        Kind.malformedDeclaration.verbatim reserved ∧
      Kind.malformedDeclaration.verbatim reserved =
        "Malformed declaration of 'box$': \x7bname\x7d is reserved" := by
  have supplied : (Keyed.names reserved).Perm Kind.malformedDeclaration.placeholders := by
    decide +kernel
  have plain : ∀ name s, (name, Parameter.string s) ∈ reserved → IsPlain s.toList := by
    intro name s h
    simp only [reserved, List.mem_cons, Prod.mk.injEq, Parameter.string.injEq, List.not_mem_nil,
      or_false] at h
    rcases h with ⟨-, rfl⟩ | ⟨-, rfl⟩ <;> decide +kernel
  -- the reason is given first but stands last, so it may spell the placeholder of the name
  have order : ¬ ["reason", "name"].Sublist Kind.malformedDeclaration.placeholders := by
    decide +kernel
  have apart : reserved.Pairwise (KeepApart .malformedDeclaration) :=
    List.pairwise_pair.2 fun before => absurd before order
  exact ⟨supplied, message_make supplied plain apart, by decide +kernel⟩

/-- **A message may misquote its parameters**: two dollar signs are quoted as one, and a name that
spells the placeholder of the reason takes the reason's place. -/
theorem message_make_not_verbatim :
    ∃ dollars braces : List (String × Parameter),
      (Keyed.names dollars).Perm Kind.unknownTemplate.placeholders ∧
      (make .unknownTemplate (some dollars) none).message = "Template '$' is not visible here" ∧
      Kind.unknownTemplate.verbatim dollars = "Template '$$' is not visible here" ∧
      (Keyed.names braces).Perm Kind.malformedDeclaration.placeholders ∧
      (make .malformedDeclaration (some braces) none).message =
        "Malformed declaration of 'no body': \x7breason\x7d" ∧
      Kind.malformedDeclaration.verbatim braces =
        "Malformed declaration of '\x7breason\x7d': no body" := by
  refine ⟨[("name", .string "$$")],
    [("name", .string "\x7breason\x7d"), ("reason", .string "no body")], ?_⟩
  have supplied : (Keyed.names [("name", Parameter.string "$$")]).Perm
      Kind.unknownTemplate.placeholders := by
    decide +kernel
  have supplied' : (Keyed.names [("name", Parameter.string "\x7breason\x7d"),
      ("reason", .string "no body")]).Perm Kind.malformedDeclaration.placeholders := by
    decide +kernel
  rw [message_make_of_supplied supplied, message_make_of_supplied supplied']
  exact ⟨supplied, by decide +kernel, by decide +kernel, supplied', by decide +kernel,
    by decide +kernel⟩

end Diagnostic

end Stencil
