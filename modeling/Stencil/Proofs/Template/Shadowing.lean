import Stencil.Proofs.Scope.Visible
import Stencil.Proofs.Template.Forms

/-!
# Imports that are hidden by a frame

An unbound `file/name` is reported as a missing import where something else is imported from the
file.  Only what is visible is looked through: a frame that binds the name under which a template
of the file is bound hides this template, and with the last one the reference turns into plain data.
The frame has nothing to do with the reference then; a tparameter that happens to be named like a
local alias is enough.

`lacksImport_push` says for every frame exactly what is left.  A document's mark hides nothing.  The
frame of a call binds no imports itself, so under it a missing import is recognised exactly if some
template of the file is bound at the home under a name that is no tparameter.

A frame of a document may import templates of the file on its own, which is the first alternative of
the general rule.  A frame of a call never does, since no form of tparameter takes a template.
-/

namespace Stencil

/-- A binding of a template that is imported from the file that a word is qualified by. -/
def Binding.IsFromFileOf (word : String) (b : Binding) : Prop :=
  ∃ q, QualifiedName.ofString? word = some q ∧ b.isImportFrom q.file = true

/-- No tparameter takes an imported template. -/
lemma TparameterForm.Takes.not_isFromFileOf {form : TparameterForm} {b : Binding}
    (takes : form.Takes b) (word : String) : ¬ b.IsFromFileOf word := by
  rintro ⟨q, _, imported⟩
  cases takes <;> cases imported

namespace Scope

variable {s : Scope} {word : String}

/-- A scope that is built by pushing frames. -/
inductive IsBuilt : Scope → Prop
  | root : IsBuilt .root
  | extend {s : Scope} (built : s.IsBuilt) (bs : List (String × Binding)) (kind : FrameKind) :
      (s.extend bs kind).IsBuilt
  | enterDocument {s : Scope} (built : s.IsBuilt) (names : List String) :
      (s.enterDocument names).IsBuilt

lemma IsBuilt.bind (built : s.IsBuilt) (name : String) (b : Binding) (kind : FrameKind) :
    (s.bind name b kind).IsBuilt :=
  built.extend _ _

lemma IsBuilt.withValues (built : s.IsBuilt) (values : List (String × Scalar)) :
    (s.withValues values).IsBuilt :=
  built.extend _ _

lemma IsBuilt.proper (built : s.IsBuilt) : s.Proper := by
  induction built with
  | root => trivial
  | extend _ bs kind ih => exact ih.extend bs kind
  | enterDocument _ names ih => exact ih.enterDocument names

/-- A missing import is recognised if some name is bound to a template of the file. -/
lemma IsBuilt.lacksImport_iff (built : s.IsBuilt) :
    s.lacksImport word = true ↔ ∃ name b, s.lookup name = some b ∧ b.IsFromFileOf word := by
  rw [Scope.lacksImport_iff built.proper]
  constructor
  · rintro ⟨q, qualified, name, b, found, imported⟩
    exact ⟨name, b, found, q, qualified, imported⟩
  · rintro ⟨name, b, found, q, qualified, imported⟩
    exact ⟨q, qualified, name, b, found, imported⟩

/-- After a push, what is imported is what the frame imports and what it does not hide. -/
lemma IsBuilt.lacksImport_extend_iff (built : s.IsBuilt) (bs : List (String × Binding))
    (kind : FrameKind) : (s.extend bs kind).lacksImport word = true ↔
      (∃ pair ∈ Keyed.ofPairs bs, pair.2.IsFromFileOf word) ∨
        ∃ name b, s.lookup name = some b ∧ b.IsFromFileOf word ∧ name ∉ Keyed.names bs := by
  have nodup := Keyed.nodup_ofPairs bs
  rw [(built.extend bs kind).lacksImport_iff]
  constructor
  · rintro ⟨name, b, found, imported⟩
    rw [lookup_extend] at found
    -- a name is looked up in the frame first, so what is found is the frame's own, or it is found
    -- below and the frame does not have the name
    rcases here : (Keyed.ofPairs bs).get? name with _ | own
    · rw [here, Option.none_or] at found
      exact .inr ⟨name, b, found, imported, Keyed.get?_ofPairs_eq_none_iff.1 here⟩
    · rw [here, Option.some_or] at found
      obtain rfl := Option.some.inj found
      exact .inl ⟨(name, own), Keyed.mem_of_get? here, imported⟩
  · rintro (⟨⟨name, b⟩, own, imported⟩ | ⟨name, b, found, imported, unhidden⟩)
    · refine ⟨name, b, ?_, imported⟩
      rw [lookup_extend, (Keyed.get?_eq_some_iff nodup).2 own, Option.some_or]
    · refine ⟨name, b, ?_, imported⟩
      rw [lookup_extend, Keyed.get?_ofPairs_eq_none_iff.2 unhidden, Option.none_or, found]

/-- The mark of a document hides nothing. -/
lemma lacksImport_enterDocument (s : Scope) (names : List String) (word : String) :
    (s.enterDocument names).lacksImport word = s.lacksImport word := by
  rfl

/-- An unbound name is reported if the document declares it, or if its import is recognised as
missing. -/
lemma unboundName_ne_nil_iff {name : Spanned String} :
    s.unboundName name ≠ [] ↔ s.declares name.inner = true ∨ s.lacksImport name.inner = true := by
  rw [unboundName, ← Bool.or_eq_true]
  split
  · next reported => simp [reported]
  · next silent => simp [silent]

end Scope

namespace Template

variable {t : Template} {call : Node} {s frame : Scope} {word : String}

/-- Under the frame of a call those imports of the home are left that no tparameter hides. -/
lemma IsFrame.lacksImport_iff (h : t.IsFrame call s frame) (built : t.home.IsBuilt) :
    frame.lacksImport word = true ↔ ∃ name b, t.home.lookup name = some b ∧ b.IsFromFileOf word ∧
      name ∉ t.tparameters.map Tparameter.name := by
  obtain ⟨bs, rfl, admits⟩ := h.pushed
  rw [(built.extend bs .call).lacksImport_iff]
  constructor
  · rintro ⟨name, b, found, imported⟩
    -- a tparameter is bound to something else, so what is found under an import's name is not
    -- under the name of a tparameter
    have unhidden : name ∉ t.tparameters.map Tparameter.name := by
      intro declared
      obtain ⟨p, hp, rfl⟩ := List.mem_map.1 declared
      obtain ⟨own, bound, ⟨_, _, _, takes⟩, _⟩ := h.binds p hp
      obtain rfl := Option.some.inj (bound.symm.trans found)
      exact takes.not_isFromFileOf word imported
    rw [h.others name unhidden] at found
    exact ⟨name, b, found, imported, unhidden⟩
  · rintro ⟨name, b, found, imported, unhidden⟩
    exact ⟨name, b, (h.others name unhidden).trans found, imported⟩

end Template

namespace Scope

/-- **Which missing imports a pushed frame leaves recognised.**  Where a frame is pushed, an import
of the file has to be in the frame, or bound below it under a name that the frame does not bind. -/
theorem lacksImport_push {s : Scope} (built : s.IsBuilt) (word : String) :
    (∀ bs kind, (s.extend bs kind).lacksImport word = true ↔
      (∃ pair ∈ Keyed.ofPairs bs, pair.2.IsFromFileOf word) ∨
        ∃ name b, s.lookup name = some b ∧ b.IsFromFileOf word ∧ name ∉ Keyed.names bs) ∧
    (∀ names, (s.enterDocument names).lacksImport word = s.lacksImport word) ∧
    ∀ (t : Template) (call : Node) (caller frame : Scope), t.home = s →
      (t.bindCall call caller).1 = some frame → ∀ span,
        frame.unboundName ⟨word, span⟩ ≠ [] ↔ s.declares word = true ∨
          ∃ name b, s.lookup name = some b ∧ b.IsFromFileOf word ∧
            name ∉ t.tparameters.map Tparameter.name := by
  refine ⟨fun bs kind => built.lacksImport_extend_iff bs kind,
    fun names => s.lacksImport_enterDocument names word, ?_⟩
  rintro t call caller frame rfl made span
  have isFrame := Template.isFrame_of_bindCall made
  have declares : frame.declares word = t.home.declares word := by
    obtain ⟨bs, rfl, _⟩ := isFrame.pushed
    exact declares_extend ..
  rw [unboundName_ne_nil_iff, declares, isFrame.lacksImport_iff built]

/-- A scope with a template of the file `lib` under a local alias. -/
def aliased : Scope :=
  Scope.root.bind "box" (.template (some ⟨"square", [], .bare "rect" [], .root, .none, .none⟩)
    .imported (some "lib") .none) .imports

/-- An alias of the same file that is not hidden keeps the reference recognised. -/
theorem lacksImport_push_aliased : aliased.IsBuilt ∧
    (aliased.extend [("size", .value ⟨.null, .none⟩)] .call).lacksImport "lib/other" = true := by
  have built : aliased.IsBuilt := IsBuilt.root.bind ..
  refine ⟨built, ((lacksImport_push built "lib/other").1 _ _).2 (.inr ⟨"box", _, rfl, ?_, ?_⟩)⟩
  · exact ⟨⟨"lib", "other"⟩, by decide +kernel, rfl⟩
  · decide

end Scope

/-- A template whose tparameter is named like the alias and whose body refers to what the file `lib`
does not provide. -/
def Template.badge : Template where
  name := "badge"
  tparameters := [⟨"box", .none, .positional⟩]
  body := .bare "lib/other" []
  home := Scope.aliased
  style := .positional
  span := .none

/-- A call of the badge. -/
def Node.badgeCall : Node where
  name := ⟨"badge", .none⟩
  entries := [⟨none, ⟨.null, .none⟩, .none⟩]
  children := []
  span := .none

/-- **A pushed frame can hide a missing import.**  The reference is recognised at the home of the
badge, but not in its body. -/
theorem Scope.lacksImport_hidden_by_tparameter :
    Template.badge.home.IsBuilt ∧ Template.badge.home.lacksImport "lib/other" = true ∧
      ∃ frame, (Template.badge.bindCall Node.badgeCall .root).1 = some frame ∧
        frame.lookup "lib/other" = none ∧ frame.lacksImport "lib/other" = false ∧
        frame.unboundName ⟨"lib/other", .none⟩ = [] := by
  refine ⟨IsBuilt.root.bind .., by decide +kernel, _, rfl, ?_⟩
  decide +kernel

end Stencil
