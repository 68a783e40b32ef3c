import Stencil.Proofs.Expansion.Simulation
import Stencil.Proofs.Scope.Visible
import Stencil.Proofs.Template.Forms

/-!
# Calls as substitution

A template whose tparameters all take values is a text with gaps.  Its body is read under the frame
of a call, which binds the tparameters; it could as well be read under the home of the template once
the values stand in the text where their tparameters stood.

The body is read lazily and the text is filled in once.  The two differ while a call inside the body
is expanded: its frame captures nodes of the body with the frame of the outer call, or the same
nodes with their gaps filled and the home.  That one stands for the other is a simulation
(`Filling.isSimulation`).  Values that were filled in are not read again, even where they are the
names of templates or of other tparameters, since a home that binds nothing but templates reads
every value as it is.

The tparameters have to be fresh at home for the sake of the reports.  One that hid what the home
imports from a file would hide with it that the file lacks what a name refers to
(`lacksImport_frame`).
-/

namespace Stencil

namespace Template

/-- What a frame puts in the place of a value: for a string that names a tparameter, the value that
the frame binds it to. -/
def fill (t : Template) (frame : Scope) (v : Spanned Scalar) : Spanned Scalar :=
  match v.inner with
  | .string name =>
    match t.tparameter? name, frame.lookup name with
    | some _, some (.value bound) => bound
    | _, _ => v
  | _ => v

variable {t : Template} {call : Node} {s frame : Scope}

/-- The home of a template that binds nothing but templates that are well formed, and none of the
template's tparameters. -/
structure HasPlainHome (t : Template) : Prop where
  templates : ∀ name b, t.home.lookup name = some b →
    ∃ u origin file span, b = .template (some u) origin file span
  fresh : ∀ p ∈ t.tparameters, t.home.lookup p.name = none

/-- A scope that binds nothing but templates reads every value as it is. -/
lemma HasPlainHome.valueOf_home (plain : t.HasPlainHome) (v : Spanned Scalar) :
    t.home.valueOf v = (v, []) := by
  unfold Scope.valueOf
  split
  · next name string =>
    rcases found : t.home.lookup name with _ | b
    · rfl
    · obtain ⟨u, origin, file, span, rfl⟩ := plain.templates name b found
      rfl
  · rfl

section Frames

variable (plain : t.HasPlainHome) (values : ∀ p ∈ t.tparameters, p.form.takesValue = true)

include values in
/-- The frame of a template that takes values binds each tparameter to a value. -/
lemma IsFrame.exists_value (h : t.IsFrame call s frame) {p : Tparameter}
    (declared : p ∈ t.tparameters) : ∃ v, frame.lookup p.name = some (.value v) := by
  obtain ⟨b, found, ⟨q, hq, _, takes⟩, _⟩ := h.binds p declared
  obtain ⟨v, rfl⟩ := takes.exists_value (values q hq)
  exact ⟨v, found⟩

include plain values in
/-- What a value is read as under the frame is what is filled in for it. -/
lemma valueOf_frame (h : t.IsFrame call s frame) (v : Spanned Scalar) :
    frame.valueOf v = t.home.valueOf (t.fill frame v) := by
  rw [plain.valueOf_home]
  obtain ⟨_ | _ | _ | name, place⟩ := v
  case string =>
    unfold Scope.valueOf fill
    dsimp only
    -- a string that names a tparameter is read as what the frame binds it to, and this is what
    -- `fill` puts there; any other string is looked up at home, where it can name a template only
    -- and is left as it is
    rcases given : t.tparameter? name with _ | p
    · rw [h.others name (tparameter?_eq_none_iff.1 given)]
      rcases found : t.home.lookup name with _ | b
      · rfl
      · obtain ⟨u, origin, file, span, rfl⟩ := plain.templates name b found
        rfl
    · obtain ⟨declared, rfl⟩ := of_tparameter? given
      obtain ⟨bound, found⟩ := h.exists_value values declared
      rw [found]
  all_goals rfl

include plain values in
/-- Entries are read under the frame as they are read under the home once they are filled in. -/
lemma entriesOf_frame (h : t.IsFrame call s frame) (entries : List Entry) :
    frame.entriesOf entries = t.home.entriesOf (entries.map (Entry.mapValue (t.fill frame))) :=
  Scope.entriesOf_congr fun e _ => valueOf_frame plain values h e.value

include plain values in
/-- The frame hides no import of the home and adds none. -/
lemma lacksImport_frame (h : t.IsFrame call s frame) (word : String) :
    frame.lacksImport word = t.home.lacksImport word := by
  obtain ⟨bs, rfl, admits⟩ := h.pushed
  have declared : ∀ {pair}, pair ∈ Keyed.ofPairs bs →
      ∃ p ∈ t.tparameters, p.name = pair.1 ∧ ∃ v, pair.2 = .value v := by
    intro pair mem
    obtain ⟨p, declared, named, takes⟩ := admits pair (Keyed.mem_of_mem_ofPairs mem)
    exact ⟨p, declared, named, takes.exists_value (values p declared)⟩
  -- the frame itself imports nothing, as it binds values only
  have own : ∀ file, ((Keyed.ofPairs bs).filter fun pair => !([] : List String).contains pair.1).any
      (fun pair => pair.2.isImportFrom file) = false := by
    intro file
    rw [List.any_eq_false]
    intro pair mem
    obtain ⟨_, _, _, v, value⟩ := declared (List.mem_filter.1 mem).1
    rw [value]
    nofun
  -- what it binds are names of tparameters, and the home has none of these to hide
  have outer : t.home.visibleFrom ((Keyed.ofPairs bs).map Prod.fst ++ []) = t.home.visible := by
    refine t.home.visibleFrom_congr fun name bound => ?_
    simp only [List.append_nil, List.not_mem_nil, iff_false]
    intro mem
    obtain ⟨pair, hp, rfl⟩ := List.mem_map.1 mem
    obtain ⟨p, hp, named, _⟩ := declared hp
    exact bound (named ▸ plain.fresh p hp)
  unfold Scope.lacksImport
  rcases QualifiedName.ofString? word with _ | q
  · rfl
  · dsimp only
    rw [Scope.visible, Scope.extend, Scope.visibleFrom, List.any_append, own, outer]
    rfl

include plain values in
/-- An unbound name is reported under the frame just as under the home. -/
lemma unboundName_frame (h : t.IsFrame call s frame) (name : Spanned String) :
    frame.unboundName name = t.home.unboundName name := by
  have declares : frame.declares name.inner = t.home.declares name.inner := by
    obtain ⟨bs, rfl, _⟩ := h.pushed
    exact Scope.declares_extend _ _ _ _
  unfold Scope.unboundName
  rw [declares, lacksImport_frame plain values h]

end Frames

/-! ## Expansions -/

/-- A name that is neither that of a marker nor that of a tparameter. -/
def IsOrdinary (t : Template) (name : String) : Prop :=
  name ≠ expandWord ∧ name ∉ t.tparameters.map Tparameter.name

instance (t : Template) (name : String) : Decidable (t.IsOrdinary name) :=
  inferInstanceAs (Decidable (_ ∧ _))

/-- A node of the body under the frame, and the same node with its gaps filled under the home. -/
inductive Filling (t : Template) (frame : Scope) : Scope → Node → Scope → Node → Prop
  | node {n : Node} (ordinary : ∀ w ∈ n.names, t.IsOrdinary w) :
      Filling t frame frame n t.home (n.mapValues (t.fill frame))

/-- A node of the body stands for itself with its gaps filled, wherever it is read. -/
lemma subjects_filling {nodes : List Node} (ordinary : ∀ w ∈ Node.namesAll nodes, t.IsOrdinary w)
    {n : Node} (mem : n ∈ nodes) :
    Correspondence.Subjects (t.Filling frame) frame (.node n) t.home
      (.node (n.mapValues (t.fill frame))) :=
  .node (.node fun w hw => ordinary w (Node.names_subset_namesAll mem hw))

/-- Nodes of the body are read alike under the frame and, with their gaps filled, under the home. -/
theorem Filling.isSimulation (plain : t.HasPlainHome)
    (values : ∀ p ∈ t.tparameters, p.form.takesValue = true) (h : t.IsFrame call s frame) :
    Correspondence.IsSimulation (t.Filling frame) := by
  rintro _ n _ _ ⟨ordinary⟩
  rw [Node.names_eq, List.forall_mem_cons] at ordinary
  obtain ⟨⟨notMarker, undeclared⟩, inside⟩ := ordinary
  unfold Scope.reading
  rw [Node.name_mapValues, if_neg notMarker, if_neg notMarker, h.others _ undeclared]
  -- the name of the node is ordinary, so both scopes look it up at home: it is bound to nothing,
  -- and the node is plain data, or it is bound to a template, and the node is a call
  rcases found : t.home.lookup n.name.inner with _ | b
  · refine ⟨.plain Node.name_mapValues.symm Node.span_mapValues.symm ?_ ?_, ?_⟩
    · rw [Node.entries_mapValues]
      exact entriesOf_frame plain values h n.entries
    · rw [Node.children_mapValues]
      exact Correspondence.subjects_siblings fun _ mem => subjects_filling inside mem
    · exact unboundName_frame plain values h n.name
  · obtain ⟨u, origin, file, span, rfl⟩ := plain.templates _ b found
    -- what the call captures are nodes of the body again, with the frame on the one side and with
    -- the home on the other, so the frames of the two calls correspond
    refine ⟨.call Node.name_mapValues.symm Node.span_mapValues.symm ?_, rfl⟩
    refine Correspondence.calls_bindCall (fun v _ => valueOf_frame plain values h v) ?_
    intro holder holds child mem
    refine subjects_filling (fun w hw => inside w ?_) mem
    exact Node.names_subset_namesAll holds (holder.children_subset_names hw)

/-- **A call of a template that takes values is textual substitution.**  Let the home of the
template bind nothing but well-formed templates and none of its tparameters, and let no node of its
body be named like a marker or a tparameter.  The frame of every call that is made binds each
tparameter to a value, and the body expands under it as the body with these values in the place of
the strings that name them expands under the home: to the same nodes with the same journal. -/
theorem expandNode_body_eq_filled (plain : t.HasPlainHome)
    (values : ∀ p ∈ t.tparameters, p.form.takesValue = true)
    (ordinary : ∀ name ∈ t.body.names, t.IsOrdinary name)
    (made : (t.bindCall call s).1 = some frame) :
    (∀ p ∈ t.tparameters, ∃ v, frame.lookup p.name = some (.value v)) ∧
      ∀ (c : Config) (used : Nat) (depth : Depth), expandNode c used depth frame t.body =
        expandNode c used depth t.home (t.body.mapValues (t.fill frame)) := by
  have isFrame := isFrame_of_bindCall made
  refine ⟨fun p declared => isFrame.exists_value values declared, fun c used depth => ?_⟩
  exact (Filling.isSimulation plain values isFrame).expandNode_eq (.node (.node ordinary))

/-- A template of nodes, which a card calls. -/
def liddedBox : Template where
  name := "box"
  tparameters := [⟨"lid", .none, .node (.bare "flat" [])⟩, ⟨"content", .none, .splice []⟩]
  body := .bare "frame" [.bare "lid" [], .naming "expand" "content"]
  home := .root
  style := .none
  span := .none

/-- A template of two values: the one is written in what the body's call of a box holds, the other
by default names the first. -/
def card : Template where
  name := "card"
  tparameters := [⟨"title", .none, .positional⟩, ⟨"width", .none, .named ⟨.string "box", .none⟩⟩]
  body := .bare "box" [.bare "lid" [.naming "text" "title"],
    .bare "content" [.naming "line" "width", .naming "line" "title"]]
  home := Scope.root.bind "box" (.template (some liddedBox) .declared none .none) .declaration
  style := .named
  span := .none

/-- A title that is the name of the other tparameter, and a width that is the name of a template,
stay as they are once they are filled in. -/
theorem card_filled : ∃ frame, (card.bindCall (.naming "card" "width") .root).1 = some frame ∧
    card.body.mapValues (card.fill frame) =
      .bare "box" [.bare "lid" [.naming "text" "width"],
        .bare "content" [.naming "line" "box", .naming "line" "width"]] ∧
    expandNode .default 0 .top frame card.body =
      expandNode .default 0 .top card.home (.bare "box" [.bare "lid" [.naming "text" "width"],
        .bare "content" [.naming "line" "box", .naming "line" "width"]]) := by
  have templates : ∀ name b, card.home.lookup name = some b →
      ∃ u origin file span, b = .template (some u) origin file span := by
    intro name b found
    rw [card, Scope.lookup_bind] at found
    split at found
    · exact ⟨_, _, _, _, (Option.some.inj found).symm⟩
    · cases found
  have fresh : ∀ p ∈ card.tparameters, card.home.lookup p.name = none := by
    decide
  refine ⟨_, rfl, rfl, ?_⟩
  have made : (card.bindCall (.naming "card" "width") .root).1 = some _ := rfl
  have filled := expandNode_body_eq_filled ⟨templates, fresh⟩ (by decide) (by decide) made
  exact filled.2 .default 0 .top

end Template

end Stencil
