import Mathlib.Data.List.Infix
import Mathlib.Tactic.Lemma
import Stencil.Text.Quoted

/-!
# Texts that show where they end

Two texts are taken off the front of a longer one in one way only.  A run of characters of one kind
ends where a character of another kind follows (`append_inj_of_run`).  A quoted text ends at its
closing quotation mark wherever it stands: inside, this mark is escaped, and no escape is the
beginning of another (`Quoted.append_inj_encode`).

The escapes are finitely many, so what is needed of them is found out by computation: each begins
with the backslash, and no two of them begin alike.  Everything else is about arbitrary texts.
-/

namespace Stencil

/-! ## Runs -/

/-- A text whose first character, if it has one, is not of the kind `p`. -/
def EndsRun (p : Char → Bool) (text : List Char) : Prop :=
  ∀ c ∈ text.head?, p c = false

section Run

variable {p : Char → Bool} {run run' rest rest' : List Char}

/-- That none of some characters is of a kind is found out one by one. -/
lemma forall_eq_false_of_all {text : List Char} (h : (text.all fun c => !p c) = true) :
    ∀ c ∈ text, p c = false := by
  simpa using h

/-- A character of one kind is none of some characters of another kind. -/
lemma forall_ne_of_all {c : Char} {text : List Char} (kind : p c = true)
    (h : (text.all fun c => !p c) = true) : ∀ other ∈ text, c ≠ other := by
  rintro other ho rfl
  rw [forall_eq_false_of_all h _ ho] at kind
  cases kind

/-- The empty text ends every run. -/
lemma endsRun_nil : EndsRun p [] :=
  fun _ none => nomatch none

/-- The first character decides. -/
lemma endsRun_cons {c : Char} : EndsRun p (c :: rest) ↔ p c = false := by
  simp [EndsRun]

lemma EndsRun.takeWhile_eq (ends : EndsRun p rest) : rest.takeWhile p = [] := by
  cases rest with
  | nil => rfl
  | cons c rest => exact List.takeWhile_cons_of_neg (ne_true_of_eq_false (endsRun_cons.1 ends))

lemma EndsRun.dropWhile_eq (ends : EndsRun p rest) : rest.dropWhile p = rest := by
  cases rest with
  | nil => rfl
  | cons c rest => exact List.dropWhile_cons_of_neg (ne_true_of_eq_false (endsRun_cons.1 ends))

/-- A run is what is taken off the front by its kind. -/
lemma takeWhile_run (all : ∀ c ∈ run, p c = true) (ends : EndsRun p rest) :
    (run ++ rest).takeWhile p = run := by
  rw [List.takeWhile_append_of_pos all, ends.takeWhile_eq, List.append_nil]

/-- What is left after a run is what comes behind it. -/
lemma dropWhile_run (all : ∀ c ∈ run, p c = true) (ends : EndsRun p rest) :
    (run ++ rest).dropWhile p = rest := by
  rw [List.dropWhile_append_of_pos all, ends.dropWhile_eq]

/-- A run ends where a character of another kind follows. -/
lemma append_inj_of_run (all : ∀ c ∈ run, p c = true) (all' : ∀ c ∈ run', p c = true)
    (ends : EndsRun p rest) (ends' : EndsRun p rest') (same : run ++ rest = run' ++ rest') :
    run = run' ∧ rest = rest' := by
  constructor
  · rw [← takeWhile_run all ends, same, takeWhile_run all' ends']
  · rw [← dropWhile_run all ends, same, dropWhile_run all' ends']

end Run

/-! ## Quoted texts -/

namespace Quoted

/-- The characters that are escaped. -/
def escaped : List Char :=
  quote :: backslash :: (List.range 32).map Char.ofNat

/-- Escapes begin with the backslash. -/
lemma head?_escape : ∀ c ∈ escaped, (escape c).head? = some backslash := by
  have all : (escaped.all fun c => (escape c).head? == some backslash) = true := by
    decide +kernel
  exact fun c h => beq_iff_eq.1 (List.all_eq_true.1 all c h)

/-- So they are a backslash and something more. -/
lemma escape_of_mem {c : Char} (h : c ∈ escaped) : ∃ text, escape c = backslash :: text :=
  List.head?_eq_some_iff.1 (head?_escape c h)

/-- Any other character is written as it is. -/
lemma escape_of_not_mem {c : Char} (h : c ∉ escaped) : escape c = [c] := by
  have printable : ¬ c.toNat < 32 := by
    intro small
    apply h
    refine List.mem_cons_of_mem _ (List.mem_cons_of_mem _ (List.mem_map.2 ⟨c.toNat, ?_, ?_⟩))
    · exact List.mem_range.2 small
    · exact Char.ofNat_toNat c
  have long : shortEscape? c = none := by
    have outside : ∀ d ∈ escaped, c ≠ d := fun d hd same => h (same ▸ hd)
    unfold shortEscape?
    simp only [outside _ (by decide +kernel : quote ∈ escaped),
      outside _ (by decide +kernel : backslash ∈ escaped),
      outside _ (by decide +kernel : '\x08' ∈ escaped),
      outside _ (by decide +kernel : '\x0c' ∈ escaped),
      outside _ (by decide +kernel : '\n' ∈ escaped),
      outside _ (by decide +kernel : '\r' ∈ escaped),
      outside _ (by decide +kernel : '\t' ∈ escaped), if_false]
  rw [escape, long]
  exact if_neg printable

/-- No escape is the beginning of another. -/
lemma eq_of_escape_isPrefixOf :
    ∀ c ∈ escaped, ∀ d ∈ escaped, (escape c).isPrefixOf (escape d) = true → c = d := by
  have all : (escaped.all fun c => escaped.all fun d =>
      !(escape c).isPrefixOf (escape d) || c == d) = true := by
    decide +kernel
  intro c hc d hd begins
  have pair := List.all_eq_true.1 (List.all_eq_true.1 all c hc) d hd
  rwa [begins, Bool.not_true, Bool.false_or, beq_iff_eq] at pair

/-- A character is recovered from how it is written, together with what follows. -/
lemma append_inj_escape {c d : Char} {rest rest' : List Char}
    (same : escape c ++ rest = escape d ++ rest') : c = d ∧ rest = rest' := by
  have characters : c = d := by
    -- of two escapes one would begin the other; an escape and a character that stands for itself
    -- differ in the first character, which is the backslash just in one case
    by_cases hc : c ∈ escaped <;> by_cases hd : d ∈ escaped
    · have front : escape d <+: escape c ++ rest := ⟨rest', same.symm⟩
      rcases List.prefix_or_prefix_of_prefix (List.prefix_append _ _) front with begins | begins
      · exact eq_of_escape_isPrefixOf c hc d hd (List.isPrefixOf_iff_prefix.2 begins)
      · exact (eq_of_escape_isPrefixOf d hd c hc (List.isPrefixOf_iff_prefix.2 begins)).symm
    · obtain ⟨text, written⟩ := escape_of_mem hc
      rw [written, escape_of_not_mem hd] at same
      exact absurd ((List.cons.inj same).1 ▸ by decide +kernel : d ∈ escaped) hd
    · obtain ⟨text, written⟩ := escape_of_mem hd
      rw [written, escape_of_not_mem hc] at same
      exact absurd ((List.cons.inj same).1 ▸ by decide +kernel : c ∈ escaped) hc
    · rw [escape_of_not_mem hc, escape_of_not_mem hd] at same
      exact (List.cons.inj same).1
  subst characters
  exact ⟨rfl, List.append_cancel_left same⟩

/-- No character is written with a quotation mark in front. -/
lemma escape_ne_quote_cons (c : Char) (rest rest' : List Char) :
    escape c ++ rest ≠ quote :: rest' := by
  intro same
  by_cases h : c ∈ escaped
  · obtain ⟨text, written⟩ := escape_of_mem h
    rw [written] at same
    exact absurd (List.cons.inj same).1 (by decide)
  · rw [escape_of_not_mem h] at same
    exact h ((List.cons.inj same).1 ▸ by decide +kernel)

/-- Characters that are written one after another end where the quotation mark stands. -/
lemma append_inj_flatMap_escape {s t rest rest' : List Char}
    (same : s.flatMap escape ++ quote :: rest = t.flatMap escape ++ quote :: rest') :
    s = t ∧ rest = rest' := by
  induction s generalizing t with
  | nil =>
    cases t with
    | nil => exact ⟨rfl, (List.cons.inj same).2⟩
    | cons d t =>
      rw [List.flatMap_cons, List.append_assoc] at same
      exact absurd same.symm (escape_ne_quote_cons d _ _)
  | cons c s ih =>
    cases t with
    | nil =>
      rw [List.flatMap_cons, List.append_assoc] at same
      exact absurd same (escape_ne_quote_cons c _ _)
    | cons d t =>
      rw [List.flatMap_cons, List.flatMap_cons, List.append_assoc, List.append_assoc] at same
      obtain ⟨rfl, further⟩ := append_inj_escape same
      obtain ⟨rfl, rest⟩ := ih further
      exact ⟨rfl, rest⟩

/-- A quoted text ends at its closing quotation mark. -/
lemma append_inj_encode {s t rest rest' : List Char}
    (same : encode s ++ rest = encode t ++ rest') : s = t ∧ rest = rest' := by
  simp only [encode, List.cons_append, List.append_assoc, List.nil_append, List.cons.injEq,
    true_and] at same
  exact append_inj_flatMap_escape same

end Quoted

end Stencil
