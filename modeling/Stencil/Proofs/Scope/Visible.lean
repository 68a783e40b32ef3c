import Stencil.Proofs.Scope.Outer

/-!
# What is visible

A scope in which no frame binds a name twice shows exactly what it looks up
(`mem_visible_iff_lookup`).  So a reference that lacks its import is recognised by what is looked up
(`lacksImport_iff`), and all scopes that are built by pushing frames are of this kind.

The walk through the visible bindings carries the names seen in nearer frames, so its law has to be
stated for any list of them: a pair is shown if its name was not seen and is looked up to its value
(`mem_visibleFrom_iff`).  The induction is along the frames, and the names of the nearest are what
the walk below has seen in addition.
-/

namespace Stencil

/-! ## Qualified names -/

namespace QualifiedName

/-- A text is split at a slash, which joins the two parts again. -/
lemma append_of_splitLast {text before after : List Char}
    (h : splitLast text = some (before, after)) : text = before ++ '/' :: after := by
  induction text generalizing before with
  | nil => cases h
  | cons c rest ih =>
    rw [splitLast] at h
    split at h
    · next found =>
      obtain ⟨rfl, rfl⟩ := Prod.mk.inj (Option.some.inj h)
      rw [ih found, List.cons_append]
    · split at h
      · next slash =>
        obtain ⟨rfl, rfl⟩ := Prod.mk.inj (Option.some.inj h)
        rw [slash, List.nil_append]
      · cases h

/-- A qualified name is the text that spells it. -/
lemma text_of_ofString? {text : String} {q : QualifiedName} (h : ofString? text = some q) :
    q.text = text := by
  unfold ofString? at h
  split at h
  · next c file d member split =>
    obtain rfl := Option.some.inj h
    apply String.toList_inj.1
    simpa [QualifiedName.text] using (append_of_splitLast split).symm
  · cases h

/-- A text without a slash spells no qualified name. -/
lemma ofString?_eq_none {text : String} (h : '/' ∉ text.toList) : ofString? text = none := by
  rcases found : ofString? text with _ | q
  · rfl
  · have slash : '/' ∈ q.text.toList := by simp [QualifiedName.text]
    rw [text_of_ofString? found] at slash
    exact absurd slash h

end QualifiedName

/-! ## Visible bindings -/

namespace Scope

variable {s : Scope} {name : String} {b : Binding} {bs : List (String × Binding)}

/-- No frame of a scope binds a name twice.  A frame is kept as a list, so this has to be said;
pushing a frame takes repeats out, and so no scope that is built by pushing is improper. -/
def Proper : Scope → Prop
  | .root => True
  | .frame parent _ bindings _ => (Keyed.names bindings).Nodup ∧ parent.Proper

/-- Pushing a frame keeps a scope proper, whatever it is made of. -/
lemma Proper.extend (h : s.Proper) (bs : List (String × Binding)) (kind : FrameKind) :
    (s.extend bs kind).Proper :=
  ⟨Keyed.nodup_ofPairs bs, h⟩

/-- The mark of a document binds nothing, so it keeps a scope proper. -/
lemma Proper.enterDocument (h : s.Proper) (names : List String) : (s.enterDocument names).Proper :=
  ⟨List.nodup_nil, h⟩

/-- Outer scopes are proper. -/
lemma IsOuter.proper (h : s.IsOuter) : s.Proper :=
  (h.throughout (P := Proper) trivial (fun _ _ proper => proper.extend _ _)
    (fun _ _ proper _ => proper.extend _ _) (fun _ _ proper => proper.enterDocument _)
    fun _ _ _ proper _ => proper.extend _ _).here

/-- Collecting declarations keeps a scope proper. -/
lemma Proper.collect {policy : CollisionPolicy} {declarations : List Node} (h : s.Proper)
    (clean : (Stencil.collect policy declarations s).2.hasErrors = false) :
    (Stencil.collect policy declarations s).1.Proper :=
  collect_induction (P := Proper) clean (h.enterDocument _)
    fun _ _ _ _ proper _ _ => proper.extend _ _

/-- Of a proper scope those bindings are shown that are looked up under a name not seen before. -/
lemma mem_visibleFrom_iff : (s : Scope) → s.Proper → ∀ seen : List String,
    (name, b) ∈ s.visibleFrom seen ↔ name ∉ seen ∧ s.lookup name = some b
  | .root, _, seen => by simp [visibleFrom, lookup]
  | .frame parent _ bindings _, ⟨nodup, proper⟩, seen => by
    rw [visibleFrom, List.mem_append, List.mem_filter, mem_visibleFrom_iff parent proper, lookup]
    have found : Keyed.get? bindings name = some b ↔ (name, b) ∈ bindings :=
      Keyed.get?_eq_some_iff nodup
    -- the frame does not bind the name and hides nothing of it, or it binds the name and hides
    -- what is below
    rcases here : Keyed.get? bindings name with _ | c
    · have unnamed : name ∉ bindings.map Prod.fst := by
        intro mem
        have has := Keyed.has_iff_mem_names (m := bindings).2 mem
        rw [Keyed.has, here] at has
        cases has
      have unbound : (name, b) ∉ bindings := fun mem =>
        unnamed (List.mem_map_of_mem (f := Prod.fst) mem)
      simp [unbound, unnamed]
    · have named : name ∈ bindings.map Prod.fst :=
        List.mem_map_of_mem (f := Prod.fst) (Keyed.mem_of_get? here)
      have same : (name, b) ∈ bindings ↔ c = b := by
        rw [← found, here, Option.some.injEq]
      simp [same, named, and_comm]

/-- A proper scope shows what it looks up. -/
lemma mem_visible_iff_lookup (proper : s.Proper) :
    (name, b) ∈ s.visible ↔ s.lookup name = some b := by
  simp [visible, mem_visibleFrom_iff s proper]

/-- What is visible does not depend on having seen names that are not bound. -/
lemma visibleFrom_congr : (s : Scope) → ∀ {seen seen' : List String},
    (∀ name, s.lookup name ≠ none → (name ∈ seen ↔ name ∈ seen')) →
      s.visibleFrom seen = s.visibleFrom seen'
  | .root, _, _, _ => rfl
  | .frame parent _ bindings _, seen, seen', h => by
    rw [visibleFrom, visibleFrom]
    -- only bound names are asked for, in this frame and, if it does not bind them, in those below
    congr 1
    · apply List.filter_congr
      intro pair hp
      have has := Keyed.has_iff_mem_names (m := bindings).2 (List.mem_map_of_mem (f := Prod.fst) hp)
      obtain ⟨b, found⟩ := Option.isSome_iff_exists.1 has
      have same := h pair.1 (by rw [lookup, found]; exact Option.some_ne_none b)
      rw [Bool.eq_iff_iff]
      simp [same]
    · apply visibleFrom_congr parent
      intro name bound
      rw [List.mem_append, List.mem_append]
      refine or_congr_right' fun fresh => h name ?_
      have unbound : Keyed.get? bindings name = none := by
        rw [← Keyed.has_eq_false_iff, ← Bool.not_eq_true, Keyed.has_iff_mem_names]
        exact fresh
      rwa [lookup, unbound]

/-- A reference lacks its import if it is qualified by a file from which something is imported. -/
lemma lacksImport_iff (proper : s.Proper) {word : String} :
    s.lacksImport word = true ↔ ∃ q, QualifiedName.ofString? word = some q ∧
      ∃ name b, s.lookup name = some b ∧ b.isImportFrom q.file = true := by
  unfold lacksImport
  rcases QualifiedName.ofString? word with _ | q
  · simp
  · simp [← mem_visible_iff_lookup proper, List.any_eq_true]

end Scope

end Stencil
